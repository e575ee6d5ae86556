import Angstrom.Matching.Quantities
import Angstrom.Types.Orders

/-!
# The delta matcher

`crates/matching-engine/src/matcher/delta.rs`. The matcher looks for a uniform clearing price of
one pool's book by bisection (`solve_clearing_price`). At a candidate price `check_ucp` adds up
what the AMM and the orders that accept the price put into and take out of the market
(`order_liquidity`): an order strictly inside its limit is filled whole, an order exactly at its
limit is filled at least to its minimum, with the rest of a partial order kept as slack. The
excess of the token solved for tells which way to move, or, when slack covers it, gives the
partial quantities; when nothing fixes the price and the bracket is small, exact orders at the
price are killed (`check_killable_orders`) and the search starts again. `fetch_orders_at_ucp`
then turns the solution into one outcome per order.

The AMM enters through what the matcher reads of it after the top-of-block swap: the bounds of
its liquidity and the token deltas of a swap to a price (`fetch_concentrated_liquidity`), which
the model takes as given (`AmmView`); without an AMM they are `(0, U256::MAX)` and `(0, 0)`. The
`while` loop takes its iterations as fuel. `u128` arithmetic wraps as in a release build, and
every operation that panics (a division by zero, a value that does not fit) makes the result
`none`.

`solveClearingPrice_terminates`: every iteration either kills an exact order of the book not
killed before or narrows the bracket, so the loop stops, and it restarts at most once per exact
order. `fetch_orders_at_ucp` does not read the book the way `order_liquidity` counted it: an
exact bid whose fee-adjusted limit is the clearing price, counted as filled whole because its
raw price is not, comes out unfilled (`mandatory_bid_unfilled`).
-/

namespace Angstrom

open FixedPoint

namespace LimitOrder

/-- `RawPoolOrder::price`: the limit price, the `U256` it is stored in read as a `Ray`. -/
def price (o : LimitOrder) : Ray := ⟨o.minPrice % 2 ^ 256, Nat.mod_lt _ (Nat.two_pow_pos 256)⟩

/-- `price_t1_over_t0`: a bid keeps its price as `t0 / t1`, inverted here rounding up. -/
def priceT1OverT0 (o : LimitOrder) : Option Ray :=
  if o.isBid then o.price.invRayRound true else some o.price

/-- `unscale_by_gas_fee` of the four user-order types: the price of a fill of the whole order at
`price` once `gasAmountT0` of `t0` is charged. -/
def unscaleByGasFee (o : LimitOrder) (price : Ray) (gasAmountT0 : Nat) : Option Ray :=
  match o.amounts, o.isBid with
  | .ranged _ maxAmountIn, true =>
    Ray.fromQuantities (wrapAdd 128 (price.quantity maxAmountIn false) gasAmountT0) maxAmountIn true
  | .ranged _ maxAmountIn, false =>
    Ray.fromQuantities (price.quantity (wrapAdd 128 maxAmountIn gasAmountT0) false) maxAmountIn true
  | .exact true amount, true =>
    Ray.fromQuantities (wrapAdd 128 (price.quantity amount false) gasAmountT0) amount true
  | .exact false amount, true => do
    let amountIn ← price.inverseQuantity (wrapSub 128 amount gasAmountT0) true
    Ray.fromQuantities amount amountIn true
  | .exact true amount, false =>
    Ray.fromQuantities (price.quantity (wrapAdd 128 amount gasAmountT0) false) amount true
  | .exact false amount, false => do
    let amountIn := wrapSub 128 (← price.inverseQuantity amount true) gasAmountT0
    Ray.fromQuantities amount amountIn true

end LimitOrder

/-- `OrderWithStorageData::pre_fee_and_gas_price`: the limit price with gas, then the fee, taken
back out. -/
def OrderWithStorageData.preFeeAndGasPrice (o : OrderWithStorageData) (fee : Nat) : Option Ray := do
  let price ← o.order.unscaleByGasFee o.order.price o.gas
  price.unscaleToFee fee

namespace Matching

/-- `Iterator::filter` with a predicate that may panic. -/
def filterPanics {α : Type} (p : α → Option Bool) : List α → Option (List α)
  | [] => some []
  | a :: as => do
    let keep ← p a
    let rest ← filterPanics p as
    return if keep then a :: rest else rest

theorem sublist_of_filterPanics {α : Type} {p : α → Option Bool} :
    ∀ {l l' : List α}, filterPanics p l = some l' → l'.Sublist l
  | [], l', h => by
    simp only [filterPanics, Option.some.injEq] at h
    subst h
    exact List.Sublist.refl _
  | a :: as, l', h => by
    simp only [filterPanics, Option.bind_eq_bind, Option.bind_eq_some_iff] at h
    obtain ⟨keep, -, rest, hrest, hl'⟩ := h
    have hsub := sublist_of_filterPanics hrest
    cases keep
    · simp only [Bool.false_eq_true, if_false, Option.pure_def, Option.some.injEq] at hl'
      subst hl'
      exact hsub.cons a
    · simp only [if_true, Option.pure_def, Option.some.injEq] at hl'
      subst hl'
      exact hsub.cons_cons a

theorem forall_mem_of_mapM {α β : Type} {f : α → Option β} {P : β → Prop}
    (hf : ∀ a b, f a = some b → P b) :
    ∀ {l : List α} {bs : List β}, l.mapM f = some bs → ∀ b ∈ bs, P b
  | [], bs, h => by
    simp only [List.mapM_nil, Option.pure_def, Option.some.injEq] at h
    subst h
    simp
  | a :: l, bs, h => by
    simp only [List.mapM_cons, Option.bind_eq_bind, Option.bind_eq_some_iff, Option.pure_def,
      Option.some.injEq] at h
    obtain ⟨b, hb, bs', hbs', rfl⟩ := h
    intro b' hb'
    rcases List.mem_cons.1 hb' with rfl | hb'
    · exact hf a b' hb
    · exact forall_mem_of_mapM hf hbs' b' hb'

def minSqrtRatio : Nat := 4295128739

def maxSqrtRatio : Nat := 1461446703485210103287273052203988822378723970342

/-- `Ray::from(SqrtPriceX96)`: the square of a `Q64.96` square-root price in ray units, rounded
down. -/
def rayOfSqrtPrice (sqrtPriceX96 : Nat) : Nat := sqrtPriceX96 * sqrtPriceX96 * const1e27 / 2 ^ 192

/-- `OrderBook`: the bids and asks in the order the sort strategy left them. -/
structure OrderBook where
  bids : List OrderWithStorageData
  asks : List OrderWithStorageData

namespace OrderBook

def allOrders (book : OrderBook) : List OrderWithStorageData := book.bids ++ book.asks

/-- `highest_clearing_price`: the largest bid price in `t1 / t0`, or the price of
`MAX_SQRT_RATIO - 1` without bids. -/
def highestClearingPrice (book : OrderBook) : Option Nat := do
  let prices ← book.bids.mapM fun bid => bid.order.price.invRayRound true
  return ((prices.map Ray.val).max?).getD (rayOfSqrtPrice (maxSqrtRatio - 1))

/-- `lowest_clearing_price`: the smallest ask price, or the price of `MIN_SQRT_RATIO + 1`
without asks. -/
def lowestClearingPrice (book : OrderBook) : Nat :=
  ((book.asks.map fun ask => ask.order.price.val).min?).getD (rayOfSqrtPrice (minSqrtRatio + 1))

/-- The ids of the exact orders of the book: the only orders a kill can name. -/
def exactIds (book : OrderBook) : List OrderId :=
  (book.allOrders.filter fun o => !o.order.isPartial).map (·.orderId)

end OrderBook

/-- What the matcher reads of the pool after the top-of-block swap (`amm_start_location`): the
bounds of its liquidity in ray units and the token deltas of a swap to a price
(`fetch_concentrated_liquidity`). -/
structure AmmView where
  minPrice : Nat
  maxPrice : Nat
  liquidityAt : Ray → Option (Int × Int)

/-- `DeltaMatcher`. -/
structure DeltaMatcher where
  book : OrderBook
  fee : Nat
  /-- Solve for `t0` when set, for `t1` otherwise. -/
  solveForT0 : Bool
  ammStartLocation : Option AmmView

/-- `OrderLiquidity`. -/
structure OrderLiquidity where
  netT0 : Int
  netT1 : Int
  bidSlack : Nat × Nat
  askSlack : Nat × Nat
  /-- `(order id, quantity, is_bid)` of the exact orders at the price. -/
  killableOrders : List (OrderId × Nat × Bool)

/-- `SupplyDemandResult`. -/
inductive SupplyDemandResult
  | moreSupply (ko : Option (List OrderId))
  | moreDemand (ko : Option (List OrderId))
  | naturallyEqual
  | partialFillEq (bidFillQ askFillQ rewardT0 : Nat)
  deriving DecidableEq, Repr

def SupplyDemandResult.fills : SupplyDemandResult → Option (Nat × Nat) × Nat
  | .partialFillEq bidFillQ askFillQ rewardT0 => (some (bidFillQ, askFillQ), rewardT0)
  | _ => (none, 0)

/-- `CheckUcpStats`, without the slack it only logs. -/
structure CheckUcpStats where
  ammT0 : Int
  ammT1 : Int
  orderT0 : Int
  orderT1 : Int

/-- `UcpSolution`. -/
structure UcpSolution where
  ucp : Ray
  killed : List OrderId
  partialFills : Option (Nat × Nat)
  rewardT0 : Nat
  deriving DecidableEq

/-- `U256::to::<u128>()`, which panics on a value that does not fit. -/
def toU128 (n : Nat) : Option Nat := if n < 2 ^ 128 then some n else none

namespace DeltaMatcher

variable (self : DeltaMatcher)

def fetchConcentratedLiquidity (price : Ray) : Option (Int × Int) :=
  match self.ammStartLocation with
  | none => some (0, 0)
  | some amm => amm.liquidityAt price

/-- `get_amount_in_out`: what an order puts in and takes out when filled for `fillAmount`. A bid
takes its `t0`, the fee on it and its gas out of the market. -/
def getAmountInOut (order : OrderWithStorageData) (fillAmount fee : Nat) (rayUcp : Ray) :
    Option (Nat × Nat) := do
  let (t1, t0Net, t0Fee) ←
    getQuantitiesAtPrice order.isBid order.order.exactIn fillAmount order.gas fee rayUcp
  return if order.isBid then (t1, wrapAdd 128 (wrapAdd 128 t0Net t0Fee) order.gas) else (t0Net, t1)

/-- The orders `order_liquidity` iterates: bids whose inverted pre-fee price is at least `price`,
then asks whose pre-fee price is at most `price`, less the killed ones. -/
def eligibleOrders (price : Ray) (killed : List OrderId) : Option (List OrderWithStorageData) := do
  let bids ← filterPanics (fun o => do
      let p ← (← o.preFeeAndGasPrice self.fee).invRayRound false
      return decide (price.val ≤ p.val)) self.book.bids
  let asks ← filterPanics (fun o => do
      let p ← o.preFeeAndGasPrice self.fee
      return decide (p.val ≤ price.val)) self.book.asks
  return (bids ++ asks).filter fun o => decide (o.orderId ∉ killed)

/-- One order of `order_liquidity`'s `for_each`: its mandatory fill into the net balances, the
rest of a partial order at the price into the slack, an exact order at the price among the
killable ones. -/
def addOrderLiquidity (price : Ray) (acc : OrderLiquidity) (o : OrderWithStorageData) :
    Option OrderLiquidity := do
  let atPrice := decide (price = (← o.order.priceT1OverT0))
  -- `(min_q, max_q)`: a range for a partial order at the price, all of any other order; an exact
  -- order at the price is registered as killable
  let minQ := if atPrice && o.order.isPartial then o.order.minAmount else o.order.amount
  let maxQ := if atPrice && o.order.isPartial then some o.order.amount else none
  let killable := if atPrice && !o.order.isPartial then
      acc.killableOrders ++ [(o.orderId, o.order.amount, o.isBid)]
    else acc.killableOrders
  let (minIn, minOut) ← getAmountInOut o minQ self.fee price
  let (t0D, t1D) : Int × Int :=
    if o.isBid then (-(minOut : Int), (minIn : Int)) else ((minIn : Int), -(minOut : Int))
  let acc : OrderLiquidity :=
    { acc with netT0 := acc.netT0 + t0D, netT1 := acc.netT1 + t1D, killableOrders := killable }
  match maxQ with
  | none => return acc
  | some fillAmount =>
    let (maxIn, maxOut) ← getAmountInOut o fillAmount self.fee price
    if o.isBid then
      return { acc with bidSlack := (wrapAdd 128 acc.bidSlack.1 (wrapSub 128 maxOut minOut),
        wrapAdd 128 acc.bidSlack.2 (wrapSub 128 maxIn minIn)) }
    else
      return { acc with askSlack := (wrapAdd 128 acc.askSlack.1 (wrapSub 128 maxIn minIn),
        wrapAdd 128 acc.askSlack.2 (wrapSub 128 maxOut minOut)) }

def orderLiquidity (price : Ray) (killed : List OrderId) : Option OrderLiquidity := do
  let orders ← self.eligibleOrders price killed
  orders.foldlM (self.addOrderLiquidity price) ⟨0, 0, (0, 0), (0, 0), []⟩

end DeltaMatcher

/-- The `fold_while` of `check_killable_orders`: eliminate orders in turn until the quantity
eliminated exceeds `minTarget`. -/
def eliminate (minTarget : Nat) :
    List (OrderId × Nat × Bool) → Nat → Option (List OrderId) → Nat × Option (List OrderId)
  | [], totalElim, elimIds => (totalElim, elimIds)
  | (orderId, orderQ, _) :: rest, totalElim, elimIds =>
    let elimIds := some (elimIds.getD [] ++ [orderId])
    let newElim := wrapAdd 128 totalElim orderQ
    if newElim > minTarget then (newElim, elimIds) else eliminate minTarget rest newElim elimIds

/-- `check_killable_orders`: the exact orders on one side, largest first, whose elimination
reaches `minTarget`, if they can. -/
def checkKillableOrders (killableOrders : List (OrderId × Nat × Bool)) (isBid : Bool)
    (minTarget : Nat) : Nat × Option (List OrderId) :=
  let candidates := (killableOrders.filter fun x => x.2.2 == isBid).mergeSort
    fun a b => decide (b.2.1 ≤ a.2.1)
  let (totalElim, orderIds) := eliminate minTarget candidates 0 none
  if totalElim ≥ minTarget then (totalElim, orderIds) else (0, none)

namespace DeltaMatcher

variable (self : DeltaMatcher)

/-- The verdict of `check_ucp` from the balances `t0Sum` and `t1Sum` of the AMM and the orders at
`price`, and the slack and killable orders of `order_liquidity`. -/
def supplyDemand (price : Ray) (t0Sum t1Sum : Int) (ol : OrderLiquidity) :
    Option SupplyDemandResult := do
  if t0Sum = 0 ∧ t1Sum = 0 then return .naturallyEqual
  let excessLiquidity := if self.solveForT0 then t0Sum else t1Sum
  let availableDrain := if self.solveForT0 then ol.bidSlack.1 else ol.askSlack.2
  let availableAdd := if self.solveForT0 then ol.askSlack.1 else ol.bidSlack.2
  let bidIsInput := !self.solveForT0
  let absExcess := satCap u128Max excessLiquidity.natAbs
  if excessLiquidity < 0 then
    if absExcess ≤ availableAdd then
      let additionalFillable := min (availableAdd - absExcess) availableDrain
      if self.solveForT0 then
        return .partialFillEq (price.quantity additionalFillable false)
          (wrapAdd 128 absExcess additionalFillable) 0
      else
        -- the `t0` the bids providing the missing `t1` take out, over-estimated
        let excessT0Cost ← price.invRay.inverseQuantity absExcess false
        let rewardT0 ← if t0Sum > 0 then (toU128 t0Sum.natAbs).map (· - excessT0Cost) else some 0
        let askFillQ ← price.inverseQuantity additionalFillable false
        return .partialFillEq (wrapAdd 128 absExcess additionalFillable) askFillQ rewardT0
    else
      return .moreDemand (checkKillableOrders ol.killableOrders bidIsInput (absExcess - availableAdd)).2
  else
    if absExcess ≤ availableDrain then
      let additionalDrainable := min (availableDrain - absExcess) availableAdd
      if self.solveForT0 then
        return .partialFillEq (price.quantity (wrapAdd 128 absExcess additionalDrainable) false)
          additionalDrainable 0
      else
        -- the `t0` the asks draining the extra `t1` bring in, under-estimated
        let excessT0Gain ← price.inverseQuantity absExcess true
        let finalT0 := t0Sum + excessT0Gain
        let rewardT0 ← if finalT0 > 0 then toU128 finalT0.natAbs else some 0
        let askFillQ ← price.inverseQuantity (wrapAdd 128 absExcess additionalDrainable) false
        return .partialFillEq additionalDrainable askFillQ rewardT0
    else
      -- `abs_excess - available_add`, which wraps when the add exceeds the excess
      return .moreSupply
        (checkKillableOrders ol.killableOrders bidIsInput (wrapSub 128 absExcess availableAdd)).2

/-- `check_ucp`: the balance of the token solved for at `price`, and what would fix it. -/
def checkUcp (price : Ray) (killed : List OrderId) :
    Option (CheckUcpStats × SupplyDemandResult) := do
  let (ammT0, ammT1) ← self.fetchConcentratedLiquidity price
  let ol ← self.orderLiquidity price killed
  let res ← self.supplyDemand price (ammT0 + ol.netT0) (ammT1 + ol.netT1) ol
  return (⟨ammT0, ammT1, ol.netT0, ol.netT1⟩, res)

/-! ## The bisection -/

/-- The state of `solve_clearing_price`'s loop. -/
structure LoopState where
  pMax : Nat
  pMin : Nat
  killed : List OrderId
  dust : Option (Nat × UcpSolution)

/-- How the loop ends. -/
inductive LoopResult
  | returned (solution : Option UcpSolution)
  | panicked
  | outOfFuel
  deriving DecidableEq

/-- The bracket a kill resets to: the book's own price bounds, without the AMM's. -/
def rawBounds : Option (Nat × Nat) := do
  let highest ← self.book.highestClearingPrice
  return (min (highest + 1) (2 ^ 256 - 1), self.book.lowestClearingPrice - 1)

def initialState : Option LoopState := do
  let (minPrice, maxPrice) := match self.ammStartLocation with
    | some amm => (amm.minPrice, amm.maxPrice)
    | none => (0, 2 ^ 256 - 1)
  let (rawMax, rawMin) ← self.rawBounds
  return ⟨min maxPrice rawMax, max minPrice rawMin, [], none⟩

/-- `(p_max + p_min) / 2`, the `U256` sum wrapping. -/
def midpoint (pMax pMin : Nat) : Ray :=
  ⟨wrapAdd 256 pMax pMin / 2,
    lt_of_le_of_lt (Nat.div_le_self _ _) (Nat.mod_lt _ (Nat.two_pow_pos 256))⟩

/-- The dust check: the excess of the token solved for, when it is non-negative and below the
price of one unit of the other token. -/
def dustExcess (pMid : Ray) (stats : CheckUcpStats) : Option (Option Nat) := do
  let (totalLiq, priceForOne) ← if self.solveForT0 then
      (pMid.inverseQuantity 1 false).map fun p => (stats.ammT0 + stats.orderT0, p)
    else some (stats.ammT1 + stats.orderT1, pMid.quantity 1 false)
  return if 0 ≤ totalLiq ∧ totalLiq.natAbs < priceForOne then some totalLiq.natAbs else none

/-- One iteration of the loop: a result, or the next state; `none` is a panic. -/
def step (s : LoopState) : Option (Option UcpSolution ⊕ LoopState) := do
  if s.pMax < s.pMin then return .inl (s.dust.map (·.2))
  let diff := s.pMax - s.pMin
  if diff ≤ 1 then return .inl (s.dust.map (·.2))
  let canKill := decide (diff ≤ 4)
  let pMid := midpoint s.pMax s.pMin
  let (stats, res) ← self.checkUcp pMid s.killed
  let excess ← self.dustExcess pMid stats
  -- keep the dust solution with the least excess
  let dust := match excess with
    | some e =>
      if e < (s.dust.map (·.1)).getD (2 ^ 256 - 1) then
        some (e, ⟨pMid, s.killed, res.fills.1, res.fills.2⟩)
      else s.dust
    | none => s.dust
  match res, canKill, self.solveForT0 with
  | .moreSupply (some ko), true, _ | .moreDemand (some ko), true, _ => do
    let (rawMax, rawMin) ← self.rawBounds
    return .inr ⟨rawMax, rawMin, s.killed ++ ko, dust⟩
  | .moreSupply _, _, true | .moreDemand _, _, false => return .inr ⟨pMid.val, s.pMin, s.killed, dust⟩
  | .moreSupply _, _, false | .moreDemand _, _, true => return .inr ⟨s.pMax, pMid.val, s.killed, dust⟩
  | .naturallyEqual, _, _ => return .inl (some ⟨pMid, s.killed, none, 0⟩)
  | .partialFillEq bidFillQ askFillQ rewardT0, _, _ =>
    return .inl (some ⟨pMid, s.killed, some (bidFillQ, askFillQ), rewardT0⟩)

/-- The loop, with `fuel` iterations. -/
def solveLoop : Nat → LoopState → LoopResult
  | 0, _ => .outOfFuel
  | fuel + 1, s =>
    match self.step s with
    | none => .panicked
    | some (.inl solution) => .returned solution
    | some (.inr s') => solveLoop fuel s'

/-- `solve_clearing_price`, with `fuel` iterations of its loop. -/
def solveClearingPrice (fuel : Nat) : LoopResult :=
  match self.initialState with
  | none => .panicked
  | some s => self.solveLoop fuel s

/-! ## The outcome of every order -/

/-- One order of `fetch_orders_at_ucp`, with the partial quantities left for bids and asks. -/
def fetchOutcome (fetch : UcpSolution) (partials : Nat × Nat) (o : OrderWithStorageData) :
    Option ((Nat × Nat) × OrderOutcome) := do
  if o.orderId ∈ fetch.killed then return (partials, ⟨o.orderId, .killed⟩)
  let preFee ← o.preFeeAndGasPrice self.fee
  let price ← if o.isBid then preFee.invRayRound false else some preFee
  let (partials, outcome) : (Nat × Nat) × OrderFillState :=
    match compare price.val fetch.ucp.val, o.isBid with
    | .gt, true | .lt, false => (partials, .completeFill)
    | .gt, false | .lt, true => (partials, .unfilled)
    | .eq, _ =>
      -- at the price: the partial quantity left on the order's side, in book order
      let partialQ := if o.isBid then partials.1 else partials.2
      if partialQ > 0 then
        let maxPartial :=
          if o.order.isPartial then o.order.amount - o.order.minAmount else o.order.minAmount
        let res : OrderFillState := if partialQ > maxPartial then .completeFill
          else .partialFill (wrapAdd 128 o.order.minAmount partialQ)
        let left := partialQ - maxPartial
        (if o.isBid then (left, partials.2) else (partials.1, left), res)
      else if o.order.isPartial then (partials, .partialFill o.order.minAmount)
      else (partials, .unfilled)
  return (partials, ⟨o.orderId, outcome⟩)

/-- `fetch_orders_at_ucp` from a list of orders, threading the partial quantities. -/
def fetchOutcomes (fetch : UcpSolution) : Nat × Nat → List OrderWithStorageData →
    Option (List OrderOutcome)
  | _, [] => some []
  | partials, o :: os => do
    let (partials, outcome) ← self.fetchOutcome fetch partials o
    let rest ← fetchOutcomes fetch partials os
    return outcome :: rest

def fetchOrdersAtUcp (fetch : UcpSolution) : Option (List OrderOutcome) :=
  self.fetchOutcomes fetch (fetch.partialFills.getD (0, 0)) self.book.allOrders

/-! ## What a kill can name -/

end DeltaMatcher

theorem eliminate_ids (minTarget : Nat) :
    ∀ (l : List (OrderId × Nat × Bool)) (totalElim : Nat) (elimIds : Option (List OrderId))
      (ko : List OrderId), (eliminate minTarget l totalElim elimIds).2 = some ko →
      elimIds = some ko ∨
        ∃ added, added ≠ [] ∧ ko = elimIds.getD [] ++ added ∧ ∀ id ∈ added, id ∈ l.map (·.1)
  | [], _, _, _, h => .inl h
  | (orderId, orderQ, isBid) :: rest, totalElim, elimIds, ko, h => by
    simp only [eliminate] at h
    split_ifs at h with hdone
    · -- the first order already reaches the target
      simp only [Option.some.injEq] at h
      exact .inr ⟨[orderId], by simp, h.symm, by simp⟩
    · rcases eliminate_ids minTarget rest _ _ ko h with h' | ⟨added, -, hko, hadded⟩
      · simp only [Option.some.injEq] at h'
        exact .inr ⟨[orderId], by simp, h'.symm, by simp⟩
      · refine .inr ⟨orderId :: added, by simp, by simpa using hko, ?_⟩
        intro id hid
        rcases List.mem_cons.1 hid with rfl | hid
        · simp
        · exact List.mem_cons_of_mem _ (hadded id hid)

theorem checkKillableOrders_ids {killableOrders : List (OrderId × Nat × Bool)} {isBid : Bool}
    {minTarget : Nat} {ko : List OrderId}
    (h : (checkKillableOrders killableOrders isBid minTarget).2 = some ko) :
    ko ≠ [] ∧ ∀ id ∈ ko, id ∈ killableOrders.map (·.1) := by
  unfold checkKillableOrders at h
  dsimp only at h
  generalize hcand : (killableOrders.filter fun x => x.2.2 == isBid).mergeSort
    (fun a b => decide (b.2.1 ≤ a.2.1)) = candidates at h
  generalize helim : eliminate minTarget candidates 0 none = r at h
  obtain ⟨totalElim, orderIds⟩ := r
  split_ifs at h with hreach
  · rcases eliminate_ids minTarget candidates 0 none ko (by rw [helim]; exact h) with
      h' | ⟨added, hne, hko, hadded⟩
    · exact absurd h' (by simp)
    · simp only [Option.getD_none, List.nil_append] at hko
      subst hko
      refine ⟨hne, fun id hid => ?_⟩
      obtain ⟨e, he, rfl⟩ := List.mem_map.1 (hadded id hid)
      rw [← hcand] at he
      exact List.mem_map_of_mem (List.mem_of_mem_filter ((List.mergeSort_perm _ _).mem_iff.1 he))

theorem foldlM_invariant {α β : Type} (f : β → α → Option β) (P : β → Prop) :
    ∀ (l : List α), (∀ b a b', a ∈ l → P b → f b a = some b' → P b') →
      ∀ b r, P b → l.foldlM f b = some r → P r
  | [], _, b, r, hb, h => by
    simp only [List.foldlM_nil, Option.pure_def, Option.some.injEq] at h
    exact h ▸ hb
  | a :: l, hf, b, r, hb, h => by
    simp only [List.foldlM_cons, Option.bind_eq_bind, Option.bind_eq_some_iff] at h
    obtain ⟨b', hb', hr⟩ := h
    exact foldlM_invariant f P l (fun c x c' hx => hf c x c' (List.mem_cons_of_mem _ hx)) b' r
      (hf b a b' (List.mem_cons_self) hb hb') hr

namespace DeltaMatcher

variable (self : DeltaMatcher)

/-- Every entry of the killable orders is an exact order of the book that is not killed. -/
def KillableIn (killed : List OrderId) (ol : OrderLiquidity) : Prop :=
  ∀ e ∈ ol.killableOrders, e.1 ∉ killed ∧ e.1 ∈ self.book.exactIds

theorem addOrderLiquidity_killable {price : Ray} {acc acc' : OrderLiquidity}
    {o : OrderWithStorageData} (h : self.addOrderLiquidity price acc o = some acc') :
    acc'.killableOrders = acc.killableOrders ∨
      (acc'.killableOrders = acc.killableOrders ++ [(o.orderId, o.order.amount, o.isBid)] ∧
        o.order.isPartial = false) := by
  unfold addOrderLiquidity at h
  simp only [Option.bind_eq_bind, Option.bind_eq_some_iff, Option.pure_def] at h
  obtain ⟨p, -, a, -, h⟩ := h
  have hk : acc'.killableOrders = if (decide (price = p) && !o.order.isPartial) = true then
      acc.killableOrders ++ [(o.orderId, o.order.amount, o.isBid)] else acc.killableOrders := by
    split at h
    · simp only [Option.some.injEq] at h
      rw [← h]
    · simp only [Option.bind_eq_some_iff] at h
      obtain ⟨x, -, h⟩ := h
      split at h <;> (simp only [Option.some.injEq] at h; rw [← h])
  rw [hk]
  cases hpart : o.order.isPartial <;> by_cases hp : price = p <;> simp [hp]

theorem mem_eligibleOrders {price : Ray} {killed : List OrderId}
    {orders : List OrderWithStorageData} (h : self.eligibleOrders price killed = some orders) :
    ∀ o ∈ orders, o.orderId ∉ killed ∧ o ∈ self.book.allOrders := by
  unfold eligibleOrders at h
  simp only [Option.bind_eq_bind, Option.bind_eq_some_iff, Option.pure_def,
    Option.some.injEq] at h
  obtain ⟨bids, hbids, asks, hasks, rfl⟩ := h
  intro o ho
  obtain ⟨ho, hkilled⟩ := List.mem_filter.1 ho
  refine ⟨by simpa using hkilled, ?_⟩
  rcases List.mem_append.1 ho with ho | ho
  · exact List.mem_append_left _ ((sublist_of_filterPanics hbids).subset ho)
  · exact List.mem_append_right _ ((sublist_of_filterPanics hasks).subset ho)

theorem orderLiquidity_killableIn {price : Ray} {killed : List OrderId} {ol : OrderLiquidity}
    (h : self.orderLiquidity price killed = some ol) : self.KillableIn killed ol := by
  unfold orderLiquidity at h
  simp only [Option.bind_eq_bind, Option.bind_eq_some_iff] at h
  obtain ⟨orders, horders, hfold⟩ := h
  have helig := self.mem_eligibleOrders horders
  refine foldlM_invariant _ (self.KillableIn killed) orders ?_ _ _ (by simp [KillableIn]) hfold
  intro acc o acc' ho hacc hstep
  rcases self.addOrderLiquidity_killable hstep with hk | ⟨hk, hpart⟩
  · rw [KillableIn, hk]
    exact hacc
  · intro e he
    rw [hk] at he
    rcases List.mem_append.1 he with he | he
    · exact hacc e he
    · rw [List.mem_singleton] at he
      subst he
      refine ⟨(helig o ho).1, List.mem_map_of_mem (List.mem_filter.2 ⟨(helig o ho).2, ?_⟩)⟩
      simp [hpart]

theorem supplyDemand_kill {price : Ray} {t0Sum t1Sum : Int} {ol : OrderLiquidity}
    {res : SupplyDemandResult} (h : self.supplyDemand price t0Sum t1Sum ol = some res)
    {ko : Option (List OrderId)} (hko : res = .moreSupply ko ∨ res = .moreDemand ko) :
    ∃ isBid minTarget, ko = (checkKillableOrders ol.killableOrders isBid minTarget).2 := by
  unfold supplyDemand at h
  cases hs : self.solveForT0 <;>
    simp only [hs, Bool.false_eq_true, ↓reduceIte, Bool.not_false, Bool.not_true] at h <;>
    split_ifs at h <;> rcases hko with rfl | rfl <;>
    simp only [Option.bind_eq_bind, Option.bind_eq_some_iff, Option.pure_def, Option.some.injEq,
      reduceCtorEq, and_false, exists_false, ite_eq_iff, Option.bind_some, or_self,
      SupplyDemandResult.moreSupply.injEq, SupplyDemandResult.moreDemand.injEq] at h
  all_goals exact ⟨_, _, h.symm⟩

theorem checkUcp_kill {price : Ray} {killed : List OrderId} {stats : CheckUcpStats}
    {res : SupplyDemandResult} (h : self.checkUcp price killed = some (stats, res)) :
    ∃ ol, self.orderLiquidity price killed = some ol ∧
      ∀ ko, (res = .moreSupply ko ∨ res = .moreDemand ko) →
        ∃ isBid minTarget, ko = (checkKillableOrders ol.killableOrders isBid minTarget).2 := by
  unfold checkUcp at h
  simp only [Option.bind_eq_bind, Option.bind_eq_some_iff, Option.pure_def,
    Option.some.injEq] at h
  obtain ⟨amm, -, ol, hol, r, hr, h⟩ := h
  obtain ⟨-, rfl⟩ := Prod.mk.inj h
  exact ⟨ol, hol, fun ko hko => self.supplyDemand_kill hr hko⟩

/-! ## Termination of the bisection -/

/-- What an iteration that does not return did: it tested the midpoint of a bracket at least two
wide, and then either killed the orders a kill verdict proposed and reset the bracket to the
book's bounds, or moved one end of the bracket to the midpoint. -/
theorem step_inr {s s' : LoopState} (h : self.step s = some (.inr s')) :
    s.pMin + 2 ≤ s.pMax ∧
      ∃ stats res, self.checkUcp (midpoint s.pMax s.pMin) s.killed = some (stats, res) ∧
        ((∃ ko, (res = .moreSupply (some ko) ∨ res = .moreDemand (some ko)) ∧
            self.rawBounds = some (s'.pMax, s'.pMin) ∧ s'.killed = s.killed ++ ko) ∨
          (s'.killed = s.killed ∧
            ((s'.pMax = (midpoint s.pMax s.pMin).val ∧ s'.pMin = s.pMin) ∨
              (s'.pMax = s.pMax ∧ s'.pMin = (midpoint s.pMax s.pMin).val)))) := by
  unfold step at h
  split_ifs at h with hlt
  · simp at h
  dsimp only at h
  split_ifs at h with hdiff
  · simp at h
  refine ⟨by omega, ?_⟩
  simp only [Option.bind_eq_bind, Option.bind_eq_some_iff] at h
  obtain ⟨⟨stats, res⟩, hc, excess, -, h⟩ := h
  refine ⟨stats, res, hc, ?_⟩
  split at h
  case h_1 _ _ _ ko hres _ | h_2 _ _ _ ko hres _ =>
    simp only [Option.bind_eq_some_iff, Option.pure_def, Option.some.injEq, Sum.inr.injEq] at h
    obtain ⟨⟨rawMax, rawMin⟩, hraw, rfl⟩ := h
    exact .inl ⟨ko, by simp [← hres], hraw, rfl⟩
  case h_3 | h_4 =>
    simp only [Option.pure_def, Option.some.injEq, Sum.inr.injEq] at h
    subst h
    exact .inr ⟨rfl, .inl ⟨rfl, rfl⟩⟩
  case h_5 | h_6 =>
    simp only [Option.pure_def, Option.some.injEq, Sum.inr.injEq] at h
    subst h
    exact .inr ⟨rfl, .inr ⟨rfl, rfl⟩⟩
  case h_7 | h_8 => simp at h

/-- A bound on every price the bracket starts from: the book's highest price is an inversion,
at most `1e54`, or the price of `MAX_SQRT_RATIO - 1`. -/
def rawPriceBound : Nat := max const1e54 (rayOfSqrtPrice (maxSqrtRatio - 1)) + 1

theorem rawPriceBound_lt : rawPriceBound < 2 ^ 255 := by decide

theorem highestClearingPrice_lt {book : OrderBook} {highest : Nat}
    (h : book.highestClearingPrice = some highest) : highest < rawPriceBound := by
  unfold OrderBook.highestClearingPrice at h
  simp only [Option.bind_eq_bind, Option.bind_eq_some_iff, Option.pure_def,
    Option.some.injEq] at h
  obtain ⟨prices, hprices, rfl⟩ := h
  have hle : ∀ p ∈ prices, p.val ≤ const1e54 :=
    forall_mem_of_mapM (fun _ _ hp => Ray.invert_le hp) hprices
  unfold rawPriceBound
  cases hmax : (prices.map Ray.val).max? with
  | none => exact Nat.lt_succ_of_le (le_max_right _ _)
  | some m =>
    have hm : m ≤ const1e54 := (List.max?_le_iff hmax).2 fun b hb => by
      obtain ⟨p, hp, rfl⟩ := List.mem_map.1 hb
      exact hle p hp
    simp only [Option.getD_some]
    omega

theorem rawBounds_fst_lt {rawMax rawMin : Nat} (h : self.rawBounds = some (rawMax, rawMin)) :
    rawMax ≤ rawPriceBound := by
  unfold rawBounds at h
  simp only [Option.bind_eq_bind, Option.bind_eq_some_iff, Option.pure_def,
    Option.some.injEq, Prod.mk.injEq] at h
  obtain ⟨highest, hh, rfl, -⟩ := h
  have := highestClearingPrice_lt hh
  omega

theorem initialState_spec {s : LoopState} (h : self.initialState = some s) :
    s.pMax ≤ rawPriceBound ∧ s.killed = [] := by
  unfold initialState at h
  simp only [Option.bind_eq_bind, Option.bind_eq_some_iff, Option.pure_def,
    Option.some.injEq] at h
  obtain ⟨⟨rawMax, rawMin⟩, hraw, rfl⟩ := h
  exact ⟨le_trans (min_le_right _ _) (self.rawBounds_fst_lt hraw), rfl⟩

theorem midpoint_between {pMax pMin : Nat} (hwide : pMin + 2 ≤ pMax) (hmax : pMax < 2 ^ 255) :
    pMin < (midpoint pMax pMin).val ∧ (midpoint pMax pMin).val < pMax := by
  have hsum : wrapAdd 256 pMax pMin = pMax + pMin := wrapAdd_of_lt (by omega)
  simp only [midpoint, hsum]
  omega

def unkilled (killed : List OrderId) : Nat :=
  (self.book.exactIds.filter fun id => decide (id ∉ killed)).length

theorem unkilled_nil : self.unkilled [] = self.book.exactIds.length := by
  simp [unkilled]

theorem unkilled_append_lt {killed ko : List OrderId} {id : OrderId} (hid : id ∈ ko)
    (hfresh : id ∉ killed) (hexact : id ∈ self.book.exactIds) :
    self.unkilled (killed ++ ko) < self.unkilled killed := by
  have hsub : (self.book.exactIds.filter fun id => decide (id ∉ killed ++ ko)).Sublist
      (self.book.exactIds.filter fun id => decide (id ∉ killed)) :=
    List.monotone_filter_right _ fun a ha => by simp_all
  refine Nat.lt_of_le_of_ne hsub.length_le fun heq => ?_
  have hin : id ∈ self.book.exactIds.filter fun id => decide (id ∉ killed) :=
    List.mem_filter.2 ⟨hexact, by simpa using hfresh⟩
  rw [← hsub.eq_of_length heq] at hin
  simp [hid] at hin

/-- A kill verdict of `check_ucp` names at least one exact order of the book, and only exact
orders that are not killed: the killed list grows and the unkilled count falls. -/
theorem kill_unkilled_lt {price : Ray} {killed : List OrderId} {stats : CheckUcpStats}
    {res : SupplyDemandResult} {ko : List OrderId}
    (h : self.checkUcp price killed = some (stats, res))
    (hko : res = .moreSupply (some ko) ∨ res = .moreDemand (some ko)) :
    killed.length < (killed ++ ko).length ∧ self.unkilled (killed ++ ko) < self.unkilled killed := by
  obtain ⟨ol, hol, hkill⟩ := self.checkUcp_kill h
  obtain ⟨isBid, minTarget, hko'⟩ := hkill (some ko) hko
  obtain ⟨hne, hmem⟩ := checkKillableOrders_ids hko'.symm
  obtain ⟨id, ids, rfl⟩ := List.exists_cons_of_ne_nil hne
  obtain ⟨e, he, hid⟩ := List.mem_map.1 (hmem id List.mem_cons_self)
  obtain ⟨hfresh, hexact⟩ := self.orderLiquidity_killableIn hol e he
  rw [hid] at hfresh hexact
  exact ⟨by simp, self.unkilled_append_lt List.mem_cons_self hfresh hexact⟩

theorem unkilled_step {s s' : LoopState} (h : self.step s = some (.inr s')) :
    s'.killed = s.killed ∨
      (s.killed.length < s'.killed.length ∧ self.unkilled s'.killed < self.unkilled s.killed) := by
  obtain ⟨-, stats, res, hc, ⟨ko, hres, -, hk⟩ | ⟨hk, -⟩⟩ := self.step_inr h
  · rw [hk]
    exact .inr (self.kill_unkilled_lt hc hres)
  · exact .inl hk

/-- The measure of the loop: the unkilled exact orders first, then the width of the bracket, which
a kill resets to at most `rawPriceBound`. -/
def measure (s : LoopState) : Nat :=
  self.unkilled s.killed * (rawPriceBound + 1) + (s.pMax - s.pMin)

theorem measure_step_lt {s s' : LoopState} (hs : s.pMax ≤ rawPriceBound)
    (h : self.step s = some (.inr s')) :
    s'.pMax ≤ rawPriceBound ∧ self.measure s' < self.measure s := by
  obtain ⟨hwide, stats, res, hc, hkill | ⟨hk, hmove⟩⟩ := self.step_inr h
  · -- a kill: fewer unkilled orders, and a bracket no wider than the bound
    obtain ⟨ko, hres, hraw, hk⟩ := hkill
    have hmax := self.rawBounds_fst_lt hraw
    have hlt := (self.kill_unkilled_lt hc hres).2
    rw [← hk] at hlt
    have hmul := Nat.mul_le_mul_right (rawPriceBound + 1) hlt
    rw [Nat.succ_mul] at hmul
    refine ⟨hmax, ?_⟩
    unfold measure
    omega
  · -- a bisection: the same orders, and the bracket shrinks to one side of the midpoint
    have hmid := midpoint_between hwide (lt_of_le_of_lt hs rawPriceBound_lt)
    unfold measure
    rw [hk]
    rcases hmove with ⟨hmax, hmin⟩ | ⟨hmax, hmin⟩ <;> refine ⟨by omega, ?_⟩ <;> omega

theorem solveLoop_ne_outOfFuel (fuel : Nat) :
    ∀ (s : LoopState), s.pMax ≤ rawPriceBound → self.measure s < fuel →
      self.solveLoop fuel s ≠ .outOfFuel := by
  -- induction on the fuel: each iteration that goes on lowers the measure by at least one
  induction fuel with
  | zero => intro s _ hfuel; omega
  | succ fuel ih =>
    intro s hs hfuel
    unfold solveLoop
    split
    · exact LoopResult.noConfusion
    · exact LoopResult.noConfusion
    · rename_i s' hstep
      obtain ⟨hs', hlt⟩ := self.measure_step_lt hs hstep
      exact ih s' hs' (by omega)

theorem solveLoop_add (fuel k : Nat) :
    ∀ (s : LoopState), self.solveLoop fuel s ≠ .outOfFuel →
      self.solveLoop (fuel + k) s = self.solveLoop fuel s := by
  induction fuel with
  | zero => intro s h; exact absurd rfl h
  | succ fuel ih =>
    intro s h
    rw [Nat.add_right_comm]
    unfold solveLoop at h ⊢
    split
    · rfl
    · rfl
    · rename_i s' hstep
      rw [hstep] at h
      exact ih s' h

theorem solveClearingPrice_add (fuel k : Nat) (h : self.solveClearingPrice fuel ≠ .outOfFuel) :
    self.solveClearingPrice (fuel + k) = self.solveClearingPrice fuel := by
  unfold solveClearingPrice at h ⊢
  cases hs : self.initialState with
  | none => rfl
  | some s =>
    rw [hs] at h
    exact self.solveLoop_add fuel k s h

/-- The number of kill restarts in `fuel` iterations of the loop from `s`: the iterations after
which the killed list has grown. -/
def killRestarts : Nat → LoopState → Nat
  | 0, _ => 0
  | fuel + 1, s =>
    match self.step s with
    | some (.inr s') => (if s.killed.length < s'.killed.length then 1 else 0) + killRestarts fuel s'
    | _ => 0

/-- The kill restarts of `solve_clearing_price` in `fuel` iterations. -/
def solveRestarts (fuel : Nat) : Nat :=
  match self.initialState with
  | none => 0
  | some s => self.killRestarts fuel s

/-- Enough iterations for any book: one bisection down from the bound per unkilled exact order,
and one more. -/
def fuelBound : Nat := (self.book.exactIds.length + 1) * (rawPriceBound + 1)

theorem killRestarts_le (fuel : Nat) :
    ∀ s : LoopState, self.killRestarts fuel s ≤ self.unkilled s.killed := by
  induction fuel with
  | zero => intro s; exact Nat.zero_le _
  | succ fuel ih =>
    intro s
    unfold killRestarts
    split
    · rename_i s' hstep
      have hrest := ih s'
      rcases self.unkilled_step hstep with hk | ⟨hlen, hlt⟩
      · rw [hk] at hrest ⊢
        simpa using hrest
      · rw [if_pos hlen]
        omega
    · exact Nat.zero_le _

/-- `solve_clearing_price` terminates: within `fuelBound` iterations it returns or panics, and
more fuel changes nothing; it restarts after a kill at most once per exact order of the book. -/
theorem solveClearingPrice_terminates :
    self.solveClearingPrice self.fuelBound ≠ .outOfFuel ∧
      (∀ k, self.solveClearingPrice (self.fuelBound + k) =
        self.solveClearingPrice self.fuelBound) ∧
      ∀ fuel, self.solveRestarts fuel ≤ self.book.exactIds.length := by
  have hne : self.solveClearingPrice self.fuelBound ≠ .outOfFuel := by
    unfold solveClearingPrice
    split
    · exact LoopResult.noConfusion
    · rename_i s hs
      obtain ⟨hmax, hkilled⟩ := self.initialState_spec hs
      refine self.solveLoop_ne_outOfFuel _ s hmax ?_
      have hmul : (self.book.exactIds.length + 1) * (rawPriceBound + 1) =
          self.book.exactIds.length * (rawPriceBound + 1) + (rawPriceBound + 1) :=
        Nat.succ_mul _ _
      unfold measure fuelBound
      rw [hkilled, unkilled_nil, hmul]
      omega
  refine ⟨hne, fun k => self.solveClearingPrice_add _ k hne, fun fuel => ?_⟩
  unfold solveRestarts
  split
  · exact Nat.zero_le _
  · rename_i s hs
    have hle := self.killRestarts_le fuel s
    rwa [(self.initialState_spec hs).2, unkilled_nil] at hle

/-! ## The solution and its settlement -/

/-- `PoolSolution`, without the searcher order and the AMM's movement. -/
structure PoolSolution where
  ucp : Nat
  limit : List OrderOutcome
  rewardT0 : Nat
  deriving DecidableEq

/-- `solution`: the outcome of every order at the clearing price. Without a price every order is
unfilled; when no order is filled the price is reset to zero. -/
def solution (fuel : Nat) : Option PoolSolution :=
  match self.solveClearingPrice fuel with
  | .returned none => some ⟨0, self.book.allOrders.map fun o => ⟨o.orderId, .unfilled⟩, 0⟩
  | .returned (some sol) => do
    let limit ← self.fetchOrdersAtUcp sol
    let ucp := if (limit.filter (·.outcome.isFilled)).length = 0 then 0 else sol.ucp.val
    return ⟨ucp, limit, sol.rewardT0⟩
  | _ => none

/-- What settling one order as its outcome says at `ucp` leaves in the market of each token: what
the order puts in less what it takes out, with the node's quantities (`get_amount_in_out` of
`OrderOutcome::fill_amount`); an order that is not filled is not settled. -/
def settleOrder (ucp : Ray) (o : OrderWithStorageData) (outcome : OrderFillState) :
    Option (Int × Int) :=
  if outcome.isFilled then do
    let (amountIn, amountOut) ← getAmountInOut o (outcome.fillAmount o.order.amount) self.fee ucp
    return if o.isBid then (-(amountOut : Int), (amountIn : Int)) else ((amountIn : Int), -(amountOut : Int))
  else some (0, 0)

/-- The balance of each token the market keeps once every order of the book is settled as `limit`
says and `rewardT0` is paid out of `t0`. -/
def settlementBalance (ucp : Ray) (limit : List OrderOutcome) (rewardT0 : Nat) :
    Option (Int × Int) := do
  let deltas ← (self.book.allOrders.zip limit).mapM fun (o, outcome) =>
    self.settleOrder ucp o outcome.outcome
  return ((deltas.map (·.1)).sum - rewardT0, (deltas.map (·.2)).sum)

end DeltaMatcher

/-! ## An exact bid whose adjusted limit is the clearing price -/

/-- An exact-in bid of `10` of `t1` at `3` of `t0` for each: its raw price inverted rounding up is
`333333333333333333333333334`, its fee-adjusted price inverted rounding down one less. -/
def atPriceBid : OrderWithStorageData where
  order :=
    { refId := 0, amounts := .exact true 10, maxExtraFeeAsset0 := 0, minPrice := 3 * 10 ^ 27,
      useInternal := false, assetIn := 2, assetOut := 1, recipient := 0, hookData := [],
      validity := .flash 1, signer := 3, signature := .ecdsa 27 1 1 }
  orderId := 1
  gas := 0

def atPriceAsk : OrderWithStorageData where
  order :=
    { refId := 0, amounts := .exact true 31, maxExtraFeeAsset0 := 0,
      minPrice := 333333333333333333333333332, useInternal := false, assetIn := 1, assetOut := 2,
      recipient := 0, hookData := [], validity := .flash 1, signer := 4,
      signature := .ecdsa 27 1 1 }
  orderId := 2
  gas := 0

/-- The two orders alone, without a fee and without an AMM, solving for `t1`. -/
def atPriceMatcher : DeltaMatcher := ⟨⟨[atPriceBid], [atPriceAsk]⟩, 0, false, none⟩

def atPriceUcp : Ray := ⟨333333333333333333333333333, by decide⟩

/-- What the search finds: the orders balance `t1` exactly and leave one unit of `t0` as reward. -/
def atPriceSolution : UcpSolution := ⟨atPriceUcp, [], some (0, 0), 1⟩

theorem atPriceMatcher_solveClearingPrice (k : Nat) :
    atPriceMatcher.solveClearingPrice (1 + k) = .returned (some atPriceSolution) := by
  have hone : atPriceMatcher.solveClearingPrice 1 = .returned (some atPriceSolution) := by
    decide +kernel
  rw [atPriceMatcher.solveClearingPrice_add 1 k (by simp [hone]), hone]

/-- The balance pass counts the bid, inside its limit but not at its raw price, as a fill of its
whole amount, and finds the book balanced at the clearing price; the fill pass compares the bid's
fee-adjusted price, which is the clearing price, finds no partial quantity left and leaves the bid
unfilled, while the ask is filled. -/
theorem mandatory_bid_unfilled :
    (∀ k, atPriceMatcher.solveClearingPrice (1 + k) = .returned (some atPriceSolution)) ∧
      atPriceMatcher.eligibleOrders atPriceUcp [] = some [atPriceBid, atPriceAsk] ∧
      atPriceBid.order.priceT1OverT0 ≠ some atPriceUcp ∧ atPriceBid.order.isPartial = false ∧
      (atPriceMatcher.orderLiquidity atPriceUcp []).map (fun ol => (ol.netT0, ol.netT1)) =
        some (1, 0) ∧
      atPriceMatcher.fetchOrdersAtUcp atPriceSolution =
        some [⟨1, .unfilled⟩, ⟨2, .completeFill⟩] :=
  ⟨atPriceMatcher_solveClearingPrice, by decide +kernel, by decide +kernel, by decide,
    by decide +kernel, by decide +kernel⟩

/-- The solution at a non-zero price fills the ask, which takes `10` of `t1` out, and nothing
brings `t1` in: settled as the outcomes say, the market is short of `t1`, and `t0` is left over
beyond the reward although no AMM, fee or gas is involved. -/
theorem atPrice_solution_short (k : Nat) :
    atPriceMatcher.solution (1 + k) =
        some ⟨atPriceUcp.val, [⟨1, .unfilled⟩, ⟨2, .completeFill⟩], 1⟩ ∧
      atPriceMatcher.settlementBalance atPriceUcp [⟨1, .unfilled⟩, ⟨2, .completeFill⟩] 1 =
        some (30, -10) := by
  refine ⟨?_, by decide +kernel⟩
  unfold DeltaMatcher.solution
  rw [atPriceMatcher_solveClearingPrice k]
  decide +kernel

/-! ## A partial bid whose slack exceeds the excess -/

def partialBid : OrderWithStorageData where
  order :=
    { refId := 0, amounts := .ranged 1 10, maxExtraFeeAsset0 := 0, minPrice := 10 ^ 27,
      useInternal := false, assetIn := 2, assetOut := 1, recipient := 0, hookData := [],
      validity := .flash 1, signer := 3, signature := .ecdsa 27 1 1 }
  orderId := 1
  gas := 0

def partialBidMatcher : DeltaMatcher := ⟨⟨[partialBid], []⟩, 0, false, none⟩

def unitPrice : Ray := ⟨10 ^ 27, by decide⟩

/-- At a price of one the bid's mandatory unit brings one `t1` in, and its other nine are bid
slack. The excess of `t1` is then more than the ask slack it could drain (none) and less than the
bid slack (`available_add`, nine): `check_ucp` takes the `MoreSupply` branch, whose kill target
`abs_excess - available_add` is `1 - 9` in `u128`. -/
theorem partialBid_killTarget_underflows :
    (partialBidMatcher.orderLiquidity unitPrice []).map (fun ol => (ol.bidSlack, ol.askSlack)) =
        some ((9, 9), (0, 0)) ∧
      (partialBidMatcher.checkUcp unitPrice []).map (fun r => (r.1.ammT1 + r.1.orderT1, r.2)) =
        some (1, .moreSupply none) := by
  constructor <;> decide +kernel

end Matching

end Angstrom
