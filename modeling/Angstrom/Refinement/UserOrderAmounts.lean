import Angstrom.Payload.UserOrderPade

/-!
# Node and contract agree on a user order's amounts

The node books a filled user order with the amounts of `get_quantities_at_price`
(`applyUserOrder`); the contract settles the `UserOrder` the node encodes for it with the amounts
of `loadAndComputeQuantity` at the price of `getSwapInfo` (`settledAmounts`). Both are compared
with `orderAmounts`, the amounts computed without bounds: the specified quantity of one side, the
other side at the fee-scaled price rounded against the order, and the gas (in `t0`) added to the
`t0` paid or taken from the `t0` received.

* `getQuantitiesAtPrice_booked`: when none of the node's `u128` conversions clamps
  (`QuantitiesFit`) and the gas is covered, the node books `orderAmounts`.
* `quantityInOut_orderAmounts`: under the same bounds the contract computes `orderAmounts`,
  reverts with an underflow exactly when the gas exceeds the `t0` it is taken from
  (`gasSubClamps`, where the node's `saturating_sub` clamps to zero), and with `MulDivFailed` when
  an exact-out order meets a zero fee-scaled price, where the node panics.
* `applyUserOrder_settled` puts the two together for the order `from_internal_order` builds.

Without the bounds the node clamps where the contract computes in `uint256`:
`applyUserOrder_clamped_quantity` is an exact-in ask whose output the node books as `u128::MAX`
where the contract pays `2 ^ 129`.
-/

namespace Angstrom

open FixedPoint Contract

/-! ## The amounts without bounds -/

/-- The amounts `(in, out)` of an order of side `isBid` that specifies `q` (its input when
`exactIn`), with gas `g` in `t0`, at the fee-scaled prices `askPrice` (`t1` per `t0`) and
`bidPrice` (`t0` per `t1`); `none` when an exact-out order meets a zero price. -/
def orderAmounts (isBid exactIn : Bool) (q g askPrice bidPrice : Nat) : Option (Nat × Nat) :=
  match isBid, exactIn with
  | true, true => some (q, bidPrice * q / const1e27 - g)
  | true, false => if bidPrice = 0 then none else some ((q + g) * const1e27 ⌈/⌉ bidPrice, q)
  | false, true => some (q, askPrice * (q - g) / const1e27)
  | false, false => if askPrice = 0 then none else some (q * const1e27 ⌈/⌉ askPrice + g, q)

/-- The gas exceeds the `t0` it is taken from: the `t0` out of an exact-in bid, or the `t0` in of
an exact-in ask. -/
def gasSubClamps (isBid exactIn : Bool) (q g bidPrice : Nat) : Bool :=
  exactIn && if isBid then decide (bidPrice * q / const1e27 < g) else decide (q < g)

/-- The quantity, the gas and every value the node converts into a `u128` on the way to the booked
amounts fit a `u128`, so that no conversion clamps and no addition wraps. -/
def QuantitiesFit (isBid exactIn : Bool) (q g askPrice bidPrice : Nat) : Prop :=
  q ≤ u128Max ∧ g ≤ u128Max ∧
    if isBid then
      if exactIn then bidPrice * q / const1e27 ≤ u128Max
      else q + g ≤ u128Max ∧ (q + g) * const1e27 ⌈/⌉ bidPrice ≤ u128Max
    else
      if exactIn then askPrice * (q - g) / const1e27 ≤ u128Max
      else q * const1e27 ⌈/⌉ askPrice + g ≤ u128Max

instance (isBid exactIn : Bool) (q g askPrice bidPrice : Nat) :
    Decidable (QuantitiesFit isBid exactIn q g askPrice bidPrice) :=
  inferInstanceAs (Decidable (_ ∧ _ ∧ _))

/-- What the contract does with the amounts: `MulDivFailed` for a zero price, an underflow where
the gas is not covered, the amounts otherwise. -/
def settlementOf : Option (Nat × Nat) → Bool → Except Revert (Nat × Nat)
  | none, _ => .error .mulDivFailed
  | some a, clamps => if clamps then .error overflow else .ok a

/-! ## Bounds -/

theorem u128Max_lt : u128Max < 2 ^ 128 := by decide

theorem lt_of_div_le_u128Max {a : Nat} (h : a / const1e27 ≤ u128Max) : a < 2 ^ 256 := by
  have hlt : a < 2 ^ 128 * const1e27 :=
    (Nat.div_lt_iff_lt_mul (by decide)).1 (lt_of_le_of_lt h u128Max_lt)
  exact lt_trans hlt (by decide)

theorem mul_const1e27_lt {a : Nat} (h : a ≤ u128Max) : a * const1e27 < 2 ^ 256 :=
  calc a * const1e27 ≤ u128Max * const1e27 := Nat.mul_le_mul_right _ h
    _ < 2 ^ 256 := by decide

theorem RAY_eq : RAY = const1e27 := rfl

/-! ## The node -/

section Node

variable {q g fee : Nat} {ucp : Ray}

/-- The booked amounts of an exact-in ask: the net `t0` sold, bought back at the clearing price
rounded up, never exceeds what came in net of gas, so the three parts of `quantity_in` add back
to the fill. -/
theorem booked_ask_exactIn (hucp : 0 < ucp.val) (hq : q ≤ u128Max) (hgq : g ≤ q)
    (hfit : (ucp.scaleToFee fee).val * (q - g) / const1e27 ≤ u128Max) :
    (getQuantitiesAtPrice false true q g fee ucp).map
        (fun r => bookedAmounts false r.1 r.2.1 r.2.2 g) =
      some (q, (ucp.scaleToFee fee).val * (q - g) / const1e27) := by
  set out := (ucp.scaleToFee fee).val * (q - g) / const1e27 with hout
  set sold := (out * const1e27) ⌈/⌉ ucp.val with hsold_def
  have hsold : sold ≤ q - g := by
    rw [hsold_def, hout, Nat.mul_comm _ (q - g)]
    exact divUp_mulDown_le (q - g) const1e27 hucp (Ray.scaleToFee_le ucp fee)
  have hmax := u128Max_lt
  have hsold_fit : sold ≤ u128Max := by omega
  simp only [getQuantitiesAtPrice, Ray.quantity, divRound_false, satCap_of_le hfit, ← hout,
    Ray.inverseQuantity_of_pos hucp, divRound_true, ← hsold_def, satCap_of_le hsold_fit,
    Option.bind_eq_bind, Option.bind_some, Option.pure_def, Option.map_some, bookedAmounts,
    Bool.false_eq_true, if_false]
  have hnet : sold + (q - g - sold) = q - g := by omega
  rw [wrapAdd_of_lt (show sold + (q - g - sold) < 2 ^ 128 by omega), hnet,
    wrapAdd_of_lt (show q - g + g < 2 ^ 128 by omega), Nat.sub_add_cancel hgq]

theorem booked_bid_exactIn (hfit : (ucp.invRay.scaleToFee fee).val * q / const1e27 ≤ u128Max) :
    (getQuantitiesAtPrice true true q g fee ucp).map
        (fun r => bookedAmounts true r.1 r.2.1 r.2.2 g) =
      some (q, (ucp.invRay.scaleToFee fee).val * q / const1e27 - g) := by
  simp only [getQuantitiesAtPrice, Ray.quantity, divRound_false, satCap_of_le hfit,
    Option.map_some, bookedAmounts, if_true]

theorem booked_bid_exactOut (hprice : 0 < (ucp.invRay.scaleToFee fee).val)
    (hqg : q + g ≤ u128Max) (hfit : (q + g) * const1e27 ⌈/⌉ (ucp.invRay.scaleToFee fee).val ≤ u128Max) :
    (getQuantitiesAtPrice true false q g fee ucp).map
        (fun r => bookedAmounts true r.1 r.2.1 r.2.2 g) =
      some ((q + g) * const1e27 ⌈/⌉ (ucp.invRay.scaleToFee fee).val, q) := by
  have hmax := u128Max_lt
  simp only [getQuantitiesAtPrice, wrapAdd_of_lt (show q + g < 2 ^ 128 by omega),
    Ray.inverseQuantity_of_pos hprice, divRound_true, satCap_of_le hfit, Option.bind_eq_bind,
    Option.bind_some, Option.pure_def, Option.map_some, bookedAmounts, if_true]

/-- The booked amounts of an exact-out ask: the net `t0` at the clearing price is at most the
gross `t0` at the fee-scaled price, so the fee `total - gas - net` does not clamp. -/
theorem booked_ask_exactOut (hucp : 0 < ucp.val) (hprice : 0 < (ucp.scaleToFee fee).val)
    (hfit : q * const1e27 ⌈/⌉ (ucp.scaleToFee fee).val + g ≤ u128Max) :
    (getQuantitiesAtPrice false false q g fee ucp).map
        (fun r => bookedAmounts false r.1 r.2.1 r.2.2 g) =
      some (q * const1e27 ⌈/⌉ (ucp.scaleToFee fee).val + g, q) := by
  set gross := q * const1e27 ⌈/⌉ (ucp.scaleToFee fee).val with hgross
  set net := q * const1e27 ⌈/⌉ ucp.val with hnet_def
  have hnet : net ≤ gross := ceilDiv_anti_right _ hprice (Ray.scaleToFee_le ucp fee)
  have hmax := u128Max_lt
  simp only [getQuantitiesAtPrice, Ray.inverseQuantity_of_pos hprice, divRound_true, ← hgross,
    satCap_of_le (show gross ≤ u128Max by omega), Ray.inverseQuantity_of_pos hucp, ← hnet_def,
    satCap_of_le (show net ≤ u128Max by omega), wrapAdd_of_lt (show gross + g < 2 ^ 128 by omega),
    Option.bind_eq_bind, Option.bind_some, Option.pure_def, Option.map_some, bookedAmounts,
    Bool.false_eq_true, if_false]
  rw [wrapAdd_of_lt (show net + (gross + g - g - net) < 2 ^ 128 by omega),
    wrapAdd_of_lt (show net + (gross + g - g - net) + g < 2 ^ 128 by omega)]
  congr 2
  omega

theorem getQuantitiesAtPrice_exactIn_isSome (isBid : Bool) (hucp : 0 < ucp.val) :
    (getQuantitiesAtPrice isBid true q g fee ucp).isSome := by
  cases isBid with
  | true => simp [getQuantitiesAtPrice]
  | false => simp [getQuantitiesAtPrice, Ray.inverseQuantity_of_pos hucp]

theorem getQuantitiesAtPrice_booked (isBid exactIn : Bool) (hucp : 0 < ucp.val)
    (hfit : QuantitiesFit isBid exactIn q g (ucp.scaleToFee fee).val (ucp.invRay.scaleToFee fee).val)
    (hclamp : gasSubClamps isBid exactIn q g (ucp.invRay.scaleToFee fee).val = false) :
    (getQuantitiesAtPrice isBid exactIn q g fee ucp).map
        (fun r => bookedAmounts isBid r.1 r.2.1 r.2.2 g) =
      orderAmounts isBid exactIn q g (ucp.scaleToFee fee).val (ucp.invRay.scaleToFee fee).val := by
  obtain ⟨hq, hg, hbranch⟩ := hfit
  cases isBid with
  | true =>
    cases exactIn with
    | true =>
      simp only [if_true] at hbranch
      exact booked_bid_exactIn hbranch
    | false =>
      simp only [if_true, Bool.false_eq_true, if_false] at hbranch
      obtain ⟨hqg, hreq⟩ := hbranch
      rcases Nat.eq_zero_or_pos (ucp.invRay.scaleToFee fee).val with h0 | hpos
      · rw [orderAmounts, if_pos h0]
        simp only [getQuantitiesAtPrice, Ray.inverseQuantity_of_zero h0, Option.bind_eq_bind,
          Option.bind_none, Option.map_none]
      · rw [booked_bid_exactOut hpos hqg hreq, orderAmounts, if_neg (Nat.pos_iff_ne_zero.1 hpos)]
  | false =>
    cases exactIn with
    | true =>
      simp only [Bool.false_eq_true, if_false, if_true] at hbranch
      have hgq : g ≤ q := by simpa [gasSubClamps] using hclamp
      exact booked_ask_exactIn hucp hq hgq hbranch
    | false =>
      simp only [Bool.false_eq_true, if_false] at hbranch
      rcases Nat.eq_zero_or_pos (ucp.scaleToFee fee).val with h0 | hpos
      · rw [orderAmounts, if_pos h0]
        simp only [getQuantitiesAtPrice, Ray.inverseQuantity_of_zero h0, Option.bind_eq_bind,
          Option.bind_none, Option.map_none]
      · rw [booked_ask_exactOut hucp hpos hbranch, orderAmounts, if_neg (Nat.pos_iff_ne_zero.1 hpos)]

end Node

/-! ## The contract -/

section Contract

variable {q g askPrice bidPrice : Nat}

theorem convertDownB_eq {price amount : Nat} (h : price * amount / const1e27 ≤ u128Max) :
    PriceLib.convertDownB price amount = .ok (price * amount / const1e27) := by
  have hlt : amount * price < 2 ^ 256 := by
    rw [Nat.mul_comm]
    exact lt_of_div_le_u128Max h
  rw [PriceLib.convertDownB, mulRayDown_eq hlt, RAY_eq, Nat.mul_comm]

theorem convertUpA_eq {price amount : Nat} (hprice : 0 < price) (h : amount ≤ u128Max) :
    PriceLib.convertUpA price amount = .ok (amount * const1e27 ⌈/⌉ price) :=
  divRayUp_eq (mul_const1e27_lt h) hprice

theorem convertUpA_zero (amount : Nat) :
    PriceLib.convertUpA 0 amount = .error .mulDivFailed :=
  mulDivUp_zero_divisor amount RAY

/-- Under the bounds of `QuantitiesFit`, the contract's `quantityInOut` settles the amounts without
bounds, reverts with an underflow where the gas is not covered, and with `MulDivFailed` at a zero
price. -/
theorem quantityInOut_orderAmounts (isBid exactIn : Bool) (variant : UserOrderVariantMap)
    (hzfo : variant.zeroForOne = !isBid) (hspec : variant.specifyingInput = exactIn)
    (hfit : QuantitiesFit isBid exactIn q g askPrice bidPrice) :
    quantityInOut variant q g (if isBid then bidPrice else askPrice) =
      settlementOf (orderAmounts isBid exactIn q g askPrice bidPrice)
        (gasSubClamps isBid exactIn q g bidPrice) := by
  obtain ⟨hq, hg, hbranch⟩ := hfit
  have hmax := u128Max_lt
  unfold quantityInOut
  rw [hzfo, hspec]
  cases isBid with
  | true =>
    cases exactIn with
    | true =>
      simp only [if_true] at hbranch
      simp only [Bool.not_true, Bool.false_eq_true, if_false, if_true, convertDownB_eq hbranch,
        Checked.ok_bind, orderAmounts, gasSubClamps, Bool.true_and, settlementOf]
      by_cases hcov : g ≤ bidPrice * q / const1e27
      · simp [Checked.sub_of_le hcov, Nat.not_lt.2 hcov]
      · rw [Nat.not_le] at hcov
        simp [Checked.sub_of_lt hcov, hcov]
        rfl
    | false =>
      simp only [if_true, Bool.false_eq_true, if_false] at hbranch
      obtain ⟨hqg, hreq⟩ := hbranch
      simp only [Bool.not_true, Bool.false_eq_true, if_false, if_true,
        Checked.add_of_lt (show q + g < 2 ^ 256 by omega), Checked.ok_bind, orderAmounts,
        gasSubClamps, Bool.false_and]
      rcases Nat.eq_zero_or_pos bidPrice with h0 | hpos
      · simp [h0, convertUpA_zero, settlementOf]
      · simp [convertUpA_eq hpos hqg, Nat.pos_iff_ne_zero.1 hpos, settlementOf]
  | false =>
    cases exactIn with
    | true =>
      simp only [Bool.false_eq_true, if_false, if_true] at hbranch
      simp only [Bool.not_false, if_true, orderAmounts, gasSubClamps, Bool.true_and,
        Bool.false_eq_true, if_false, settlementOf]
      by_cases hcov : g ≤ q
      · simp [Checked.sub_of_le hcov, convertDownB_eq hbranch, Nat.not_lt.2 hcov]
      · rw [Nat.not_le] at hcov
        simp [Checked.sub_of_lt hcov, hcov]
        rfl
    | false =>
      simp only [Bool.false_eq_true, if_false] at hbranch
      simp only [Bool.not_false, if_true, Bool.false_eq_true, if_false, orderAmounts,
        gasSubClamps, Bool.false_and]
      rcases Nat.eq_zero_or_pos askPrice with h0 | hpos
      · subst h0
        rw [convertUpA_zero, Checked.error_bind, if_pos rfl, settlementOf]
      · have hin : q * const1e27 ⌈/⌉ askPrice + g < 2 ^ 256 := by omega
        rw [convertUpA_eq hpos hq, Checked.ok_bind, Checked.add_of_lt hin, Checked.ok_bind,
          if_neg (Nat.pos_iff_ne_zero.1 hpos), settlementOf]
        rfl

end Contract

/-! ## The node's booking against the contract's settlement -/

/-- The amounts `_validateAndExecuteUserOrder` settles for the user order `uo` on `pair`: the
price of `getSwapInfo` in the order's direction, then `loadAndComputeQuantity` over the order's
encoded quantity fields. The limit check between the two decides whether the order settles, not
its amounts, and is left out. -/
def settledAmounts (pair : Pair) (buffer : UserOrderBuffer) (uo : UserOrder) :
    Except Revert (Nat × Nat) := do
  let (_, _, price) ← getSwapInfo pair uo.variantMap.zeroForOne
  let (_, _, amountIn, amountOut) ←
    loadAndComputeQuantity buffer uo.quantitySection 0 uo.variantMap price
  return (amountIn, amountOut)

theorem settledAmounts_eq {pair : Pair} (buffer : UserOrderBuffer) {uo : UserOrder}
    {assetIn assetOut : Address} {price : Nat}
    (hswap : getSwapInfo pair uo.variantMap.zeroForOne = .ok (assetIn, assetOut, price))
    (hq : uo.orderQuantities.Valid) (hfee : uo.maxExtraFeeAsset0 < 2 ^ 128)
    (hgas : uo.extraFeeAsset0 ≤ uo.maxExtraFeeAsset0) :
    settledAmounts pair buffer uo =
      quantityInOut uo.variantMap uo.orderQuantities.specified uo.extraFeeAsset0 price := by
  have hload := loadAndComputeQuantity_quantitySection buffer uo price [] hq hfee hgas
  rw [List.append_nil] at hload
  rw [← hload, settledAmounts, hswap, Checked.ok_bind]
  dsimp only
  cases loadAndComputeQuantity buffer uo.quantitySection 0 uo.variantMap price with
  | error e => rfl
  | ok r => rfl

/-- The price `getSwapInfo` gives an order on the pair that carries the clearing price: the node's
fee-scaled ask price for an ask, its fee-scaled bid price for a bid. -/
theorem getSwapInfo_clearing {pair : Pair} {ucp : Ray} {fee : Nat} (isBid : Bool)
    (hfee : fee < const1e6) (hprice : ucp.val * (const1e6 - fee) < 2 ^ 256)
    (h10 : pair.price1Over0 = ucp.val) (h01 : pair.price0Over1 = invRayUnchecked ucp.val)
    (hpf : pair.feeInE6 = fee) :
    ∃ assetIn assetOut, getSwapInfo pair (!isBid) = .ok (assetIn, assetOut,
      if isBid then (ucp.invRay.scaleToFee fee).val else (ucp.scaleToFee fee).val) := by
  have hfee' : pair.feeInE6 ≤ PriceLib.ONE_E6 := by rw [hpf]; exact le_of_lt hfee
  cases isBid with
  | true =>
    have hinv : invRayUnchecked ucp.val ≤ const1e54 := Nat.div_le_self _ _
    have hmul : pair.price0Over1 * (PriceLib.ONE_E6 - pair.feeInE6) < 2 ^ 256 :=
      calc pair.price0Over1 * (PriceLib.ONE_E6 - pair.feeInE6)
          ≤ const1e54 * PriceLib.ONE_E6 := Nat.mul_le_mul (h01 ▸ hinv) (Nat.sub_le _ _)
        _ < 2 ^ 256 := by decide
    refine ⟨pair.asset1, pair.asset0, (getSwapInfo_eq pair false hfee' hmul).trans ?_⟩
    simp only [Bool.false_eq_true, if_false, if_true, h01, hpf, Ray.scaleToFee_val,
      Ray.invRay_val]
    rfl
  | false =>
    have hmul : pair.price1Over0 * (PriceLib.ONE_E6 - pair.feeInE6) < 2 ^ 256 := by
      rw [h10, hpf]
      exact hprice
    refine ⟨pair.asset0, pair.asset1, (getSwapInfo_eq pair true hfee' hmul).trans ?_⟩
    simp only [if_true, Bool.false_eq_true, if_false, h10, hpf, Ray.scaleToFee_val]
    rfl

theorem applyUserOrder_settled (outcome : OrderOutcome) (order : OrderWithStorageData) (ucp : Ray)
    (fee : Nat) (sharedGas : Option Nat) (pairIdx : Nat) (pair : Pair) (buffer : UserOrderBuffer)
    (hid : outcome.id = order.orderId) (hucp : 0 < ucp.val) (hfee : fee < const1e6)
    (hprice : ucp.val * (const1e6 - fee) < 2 ^ 256) (h10 : pair.price1Over0 = ucp.val)
    (h01 : pair.price0Over1 = invRayUnchecked ucp.val) (hpf : pair.feeInE6 = fee)
    (hamount : order.order.amount < 2 ^ 128)
    (hmin : order.order.minAmount ≤ outcome.outcome.fillAmount order.order.amount)
    (hgas : order.gas ≤ order.order.maxExtraFeeAsset0)
    (hmaxgas : order.order.maxExtraFeeAsset0 < 2 ^ 128)
    (hfit : QuantitiesFit order.isBid order.order.exactIn
      (outcome.outcome.fillAmount order.order.amount) order.gas (ucp.scaleToFee fee).val
      (ucp.invRay.scaleToFee fee).val) :
    (applyUserOrder outcome order ucp fee sharedGas pairIdx = none ∧
        settledAmounts pair buffer (UserOrder.fromInternalOrderMaxGas order outcome pairIdx) =
          .error .mulDivFailed) ∨
      ∃ b, applyUserOrder outcome order ucp fee sharedGas pairIdx = some (.ok b) ∧
        b.userOrder = UserOrder.fromInternalOrderMaxGas order outcome pairIdx ∧
        settledAmounts pair buffer b.userOrder =
          if gasSubClamps order.isBid order.order.exactIn
              (outcome.outcome.fillAmount order.order.amount) order.gas
              (ucp.invRay.scaleToFee fee).val then .error overflow
          else .ok (b.quantityIn, b.quantityOut) := by
  set q := outcome.outcome.fillAmount order.order.amount with hq_def
  set uo := UserOrder.fromInternalOrderMaxGas order outcome pairIdx with huo
  set clamps := gasSubClamps order.isBid order.order.exactIn q order.gas
    (ucp.invRay.scaleToFee fee).val with hclamps
  set amounts := orderAmounts order.isBid order.order.exactIn q order.gas
    (ucp.scaleToFee fee).val (ucp.invRay.scaleToFee fee).val with hamounts
  have hnode := applyUserOrder_eq ucp fee sharedGas pairIdx hid (lt_of_le_of_lt hgas hmaxgas) hgas
  rw [← hq_def, ← huo] at hnode
  have hzfo : uo.variantMap.zeroForOne = !order.isBid := UserOrder.variantMap_zeroForOne uo
  obtain ⟨assetIn, assetOut, hswap⟩ := getSwapInfo_clearing order.isBid hfee hprice h10 h01 hpf
  rw [← hzfo] at hswap
  have hcontract : settledAmounts pair buffer uo = settlementOf amounts clamps := by
    rw [settledAmounts_eq buffer hswap (UserOrder.quantitiesOf_valid order outcome hamount hmin)
      hmaxgas hgas]
    have hspec : uo.variantMap.specifyingInput = order.order.exactIn :=
      (UserOrder.variantMap_specifyingInput uo).trans
        (UserOrder.isRanged_quantitiesOf_or order outcome)
    have hfill : uo.orderQuantities.specified = q :=
      UserOrder.quantitiesOf_specified order outcome hmin
    rw [hfill]
    exact quantityInOut_orderAmounts order.isBid order.order.exactIn _ hzfo hspec hfit
  cases hcl : clamps with
  | true =>
    -- the gas is not covered: the node clamps and books, the contract reverts
    have hexact : order.order.exactIn = true := by
      simp only [hclamps, gasSubClamps, Bool.and_eq_true] at hcl
      exact hcl.1
    have hnode_some : (getQuantitiesAtPrice order.isBid order.order.exactIn q order.gas fee
        ucp).isSome := by
      rw [hexact]
      exact getQuantitiesAtPrice_exactIn_isSome order.isBid hucp
    obtain ⟨r, hr⟩ := Option.isSome_iff_exists.1 hnode_some
    have hamounts_some : amounts.isSome := by
      simp only [hamounts, hexact, orderAmounts]
      cases order.isBid <;> rfl
    obtain ⟨a, ha⟩ := Option.isSome_iff_exists.1 hamounts_some
    right
    rw [hnode, hr]
    refine ⟨_, rfl, rfl, ?_⟩
    show settledAmounts pair buffer uo = _
    rw [hcontract, ha, hcl]
    rfl
  | false =>
    have hbook := getQuantitiesAtPrice_booked order.isBid order.order.exactIn hucp hfit hcl
    rw [← hamounts] at hbook
    cases ha : amounts with
    | none =>
      -- an exact-out order at a zero price: the node panics, the contract reverts
      rw [ha, Option.map_eq_none_iff] at hbook
      left
      rw [hnode, hbook, hcontract, ha]
      exact ⟨rfl, rfl⟩
    | some a =>
      rw [ha, Option.map_eq_some_iff] at hbook
      obtain ⟨r, hr, hra⟩ := hbook
      right
      rw [hnode, hr]
      refine ⟨_, rfl, rfl, ?_⟩
      show settledAmounts pair buffer uo = _
      rw [hcontract, ha, hcl, ← hra]
      rfl

/-- An exact-in bid of `10 ^ 6` of `t1` with gas `50`, on the pair of assets `1` and `2` cleared at
`2` with a fee of `0.3%`. -/
def sampleBid : OrderWithStorageData where
  order :=
    { refId := 0, amounts := .exact true (10 ^ 6), maxExtraFeeAsset0 := 100, minPrice := 0,
      useInternal := false, assetIn := 2, assetOut := 1, recipient := 0, hookData := [],
      validity := .flash 1, signer := 3, signature := .ecdsa 27 1 1 }
  orderId := 7
  gas := 50

def sampleBuffer : UserOrderBuffer := ⟨.exactFlash, 0, 0, 0, 0, 0, false, 0, 0, 0, 0, 0, 0⟩

theorem applyUserOrder_settled_sampleBid :
    (applyUserOrder ⟨7, .completeFill⟩ sampleBid ⟨2 * 10 ^ 27, by decide⟩ 3000 none 0 = none ∧
        settledAmounts ⟨1, 2, 60, 3000, invRayUnchecked (2 * 10 ^ 27), 2 * 10 ^ 27⟩ sampleBuffer
          (UserOrder.fromInternalOrderMaxGas sampleBid ⟨7, .completeFill⟩ 0) = .error .mulDivFailed) ∨
      ∃ b, applyUserOrder ⟨7, .completeFill⟩ sampleBid ⟨2 * 10 ^ 27, by decide⟩ 3000 none 0 =
          some (.ok b) ∧
        b.userOrder = UserOrder.fromInternalOrderMaxGas sampleBid ⟨7, .completeFill⟩ 0 ∧
        settledAmounts ⟨1, 2, 60, 3000, invRayUnchecked (2 * 10 ^ 27), 2 * 10 ^ 27⟩ sampleBuffer
            b.userOrder =
          if gasSubClamps sampleBid.isBid sampleBid.order.exactIn
              ((OrderFillState.completeFill).fillAmount sampleBid.order.amount) sampleBid.gas
              ((Ray.invRay ⟨2 * 10 ^ 27, by decide⟩).scaleToFee 3000).val then .error overflow
          else .ok (b.quantityIn, b.quantityOut) :=
  applyUserOrder_settled ⟨7, .completeFill⟩ sampleBid ⟨2 * 10 ^ 27, by decide⟩ 3000 none 0
    ⟨1, 2, 60, 3000, invRayUnchecked (2 * 10 ^ 27), 2 * 10 ^ 27⟩ sampleBuffer rfl (by decide)
    (by decide) (by decide) rfl rfl rfl (by decide) (by decide) (by decide) (by decide) (by decide)

/-- An exact-in ask of `2 ^ 127` of `t0` with no gas, filled completely at a clearing price of `4`. -/
def clampedAsk : OrderWithStorageData where
  order :=
    { refId := 0, amounts := .exact true (2 ^ 127), maxExtraFeeAsset0 := 0, minPrice := 0,
      useInternal := false, assetIn := 1, assetOut := 2, recipient := 0, hookData := [],
      validity := .flash 1, signer := 3, signature := .ecdsa 27 1 1 }
  orderId := 1
  gas := 0

theorem applyUserOrder_clamped_quantity :
    (applyUserOrder ⟨1, .completeFill⟩ clampedAsk ⟨4 * 10 ^ 27, by decide⟩ 0 none 0).map
        (Except.map fun b => (b.quantityIn, b.quantityOut)) = some (.ok (2 ^ 127, 2 ^ 128 - 1)) ∧
      ∀ buffer, settledAmounts ⟨1, 2, 60, 0, invRayUnchecked (4 * 10 ^ 27), 4 * 10 ^ 27⟩ buffer
        (UserOrder.fromInternalOrderMaxGas clampedAsk ⟨1, .completeFill⟩ 0) =
          .ok (2 ^ 127, 2 ^ 129) := by
  refine ⟨by rfl, fun buffer => ?_⟩
  -- the node clamps the `t1` out at `u128::MAX`; the contract computes `2 ^ 127 * 4`
  have hswap : getSwapInfo ⟨1, 2, 60, 0, invRayUnchecked (4 * 10 ^ 27), 4 * 10 ^ 27⟩
      (UserOrder.fromInternalOrderMaxGas clampedAsk ⟨1, .completeFill⟩ 0).variantMap.zeroForOne =
        .ok (1, 2, 4 * 10 ^ 27) := by decide
  rw [settledAmounts_eq buffer hswap (by decide) (by decide) (by decide)]
  decide

end Angstrom
