import Angstrom.Contract.BundleDecoding
import Angstrom.Contract.MixedSign
import Angstrom.Lib.TokenLedger
import Angstrom.Lib.Transition

/-!
# Settlement: the contract's books over every run

`Settlement` (`modules/Settlement.sol`) keeps the internal balances `_balances` of the assets the
contract holds for its users and, during a bundle, the transient `bundleDeltas`. The money moves
through:

* `deposit` and `withdraw`, which move tokens in and out against an internal balance;
* `TopLevelAuth.pullFee`, through which the controller takes tokens out, and
  `PoolUpdates.beforeRemoveLiquidity`, which pays a position's rewards to the pool manager;
* a bundle (`Angstrom.unlockCallback`): `_takeAssets` borrows from the pool manager, each pool
  update books its rewards (`bundleDeltas.sub(asset0, rewardTotal)`), each order settles through
  `_settleOrderIn` and `_settleOrderOut`, a user order's hook may call back into the contract in
  between, and `_saveAndSettle` requires every asset's delta to come to exactly what the bundle
  saves plus what it pays back to the pool manager.

The tokens are standard ERC-20 ledgers (`Lib.TokenLedger`), as the source's warnings assume: no
fee on transfer, no rebasing. A hook is the list of calls it makes back into the contract, each run
as the contract runs it; a failed call the hook catches changes nothing and is left out of the list.
The pool manager's own accounting, the swaps, the growth accumulators, the price limit and the
signatures are modelled elsewhere (`PoolRewards`, `UserOrderBuffer`, `Execution`) or left out: they
add ways to revert but move no token of the contract.

The result is an exact account of the contract's surplus of each asset, what it holds beyond what
its internal balances owe (`surplus`). Deposits and withdrawals leave it as it is, a bundle adds
what it saves and the rewards it books, and the fee pulls and reward payments take their amounts
out (`surplus_run`). Inside a bundle the carried quantity is the surplus less the asset's delta
(`held`): taking, settling and the hook's deposits and withdrawals keep it, so that the final check
on the deltas turns it back into the surplus.
-/

namespace Angstrom.Contract

namespace Settlement

/-! ## State and token movements -/

/-- The storage the settlement code reads and writes, with every asset's ERC-20 balances. -/
structure State where
  /-- `IERC20(asset).balanceOf(holder)`. -/
  tokens : Address → Address → Nat
  /-- `_balances[asset][owner]`. -/
  balances : Address → Address → Nat
  /-- `TopLevelAuth._controller`. -/
  controller : Address

def setBalance (balances : Address → Address → Nat) (asset owner : Address) (v : Nat) :
    Address → Address → Nat :=
  Function.update balances asset (Function.update (balances asset) owner v)

/-- A transfer of `asset` by its token contract, reverting with `e` when the token refuses it. -/
def transferToken (tokens : Address → Address → Nat) (asset src dst : Address) (amount : Nat)
    (e : Revert) : Except Revert (Address → Address → Nat) :=
  match TokenLedger.transfer (tokens asset) src dst amount with
  | some held => pure (Function.update tokens asset held)
  | none => throw e

/-! ## Calls from outside

The contract's own address is `angstrom` and the pool manager's `uniV4` (`UNI_V4`). -/

section External

variable (angstrom uniV4 : Address)

/-- `deposit(asset, to, amount)` called by `sender`, crediting `to` (here `recipient`);
`deposit(asset, amount)` is the case `recipient = sender`. -/
def deposit (s : State) (sender asset recipient : Address) (amount : Nat) : Except Revert State := do
  let tokens ← transferToken s.tokens asset sender angstrom amount .transferFromFailed
  let balance ← Checked.add 256 (s.balances asset recipient) amount
  pure { s with tokens, balances := setBalance s.balances asset recipient balance }

/-- `withdraw(asset, to, amount)` called by `sender`, paying `to` (here `recipient`);
`withdraw(asset, amount)` is the case `recipient = sender`. -/
def withdraw (s : State) (sender asset recipient : Address) (amount : Nat) : Except Revert State := do
  let balance ← Checked.sub (s.balances asset sender) amount
  let tokens ← transferToken s.tokens asset angstrom recipient amount .transferFailed
  pure { s with tokens, balances := setBalance s.balances asset sender balance }

def pullFee (s : State) (sender asset : Address) (amount : Nat) : Except Revert State := do
  if sender ≠ s.controller then throw .notController
  let tokens ← transferToken s.tokens asset angstrom sender amount .transferFailed
  pure { s with tokens }

def setController (s : State) (sender newController : Address) : Except Revert State := do
  if sender ≠ s.controller then throw .notController
  pure { s with controller := newController }

/-- The payment of `PoolUpdates.beforeRemoveLiquidity`, called by `sender`, for a position whose
owed `rewards` in `currency0` the hook has computed: a transfer to the pool manager, which
credits the position's owner (`settleFor`). -/
def beforeRemoveLiquidity (s : State) (sender currency0 : Address) (rewards : Nat) :
    Except Revert State := do
  if sender ≠ uniV4 then throw .notUniswap
  if rewards > 0 then
    let tokens ← transferToken s.tokens currency0 angstrom uniV4 rewards .transferFailed
    pure { s with tokens }
  else
    pure s

/-- A call from outside a bundle that moves the contract's tokens or its books, with its
`msg.sender`. -/
inductive ExternalCall where
  | deposit (sender asset recipient : Address) (amount : Nat)
  | withdraw (sender asset recipient : Address) (amount : Nat)
  | pullFee (sender asset : Address) (amount : Nat)
  | setController (sender newController : Address)
  | beforeRemoveLiquidity (sender currency0 : Address) (rewards : Nat)
  deriving DecidableEq, Repr

def callExternal (s : State) : ExternalCall → Except Revert State
  | .deposit sender asset recipient amount => deposit angstrom s sender asset recipient amount
  | .withdraw sender asset recipient amount => withdraw angstrom s sender asset recipient amount
  | .pullFee sender asset amount => pullFee angstrom s sender asset amount
  | .setController sender newController => setController s sender newController
  | .beforeRemoveLiquidity sender currency0 rewards =>
    beforeRemoveLiquidity angstrom uniV4 s sender currency0 rewards

end External

/-! ## Bundles -/

/-- The settlement part of a pool update: its pair and the total `_decodeAndReward` returns. -/
structure PoolUpdate where
  pairIndex : Nat
  rewardTotal : Nat
  deriving DecidableEq, Repr

/-- A top-of-block order as `_validateAndExecuteToBOrder` settles it, with its recovered signer;
`recipient` is `address(0)` when the order names none. -/
structure ToBOrder where
  useInternal : Bool
  quantityIn : Nat
  quantityOut : Nat
  maxGasAsset0 : Nat
  gasUsedAsset0 : Nat
  pairIndex : Nat
  zeroForOne : Bool
  recipient : Address
  signer : Address
  deriving DecidableEq, Repr

/-- A user order as `_validateAndExecuteUserOrder` settles it, with its recovered signer and the
amounts `loadAndComputeQuantity` computed; `hook` is `none` for an order without hook, and
otherwise the calls the hook makes back into the contract. -/
structure UserOrder where
  useInternal : Bool
  pairIndex : Nat
  zeroForOne : Bool
  recipient : Address
  hook : Option (List ExternalCall)
  amountIn : Nat
  amountOut : Nat
  signer : Address
  deriving DecidableEq, Repr

/-- What `unlockCallback` reads of a bundle for its settlement. -/
structure Bundle where
  assets : List Payload.Asset
  pairs : List Payload.Pair
  poolUpdates : List PoolUpdate
  toBOrders : List ToBOrder
  userOrders : List UserOrder
  deriving DecidableEq, Repr

/-- The two assets of a pair as `PairLib.readFromAndValidate` lays them out in memory. -/
def resolvePair (assets : List Address) (pair : Payload.Pair) : Except Revert (Address × Address) := do
  let asset0 ← AssetLib.get assets pair.index0
  let asset1 ← AssetLib.get assets pair.index1
  pure (asset0, asset1)

def getPair (pairs : List (Address × Address)) (index : Nat) : Except Revert (Address × Address) :=
  match pairs[index]? with
  | some pair => pure pair
  | none => throw (.pairAccessOutOfBounds index pairs.length)

def getAssets (pair : Address × Address) (zeroToOne : Bool) : Address × Address :=
  if zeroToOne then (pair.1, pair.2) else (pair.2, pair.1)

section Bundle

variable (angstrom uniV4 : Address)

def take (sd : State × DeltaTracker) (asset : Payload.Asset) : Except Revert (State × DeltaTracker) := do
  if asset.take > 0 then
    let tokens ← transferToken sd.1.tokens asset.addr uniV4 angstrom asset.take .transferFailed
    let deltas ← sd.2.add asset.addr asset.take
    pure ({ sd.1 with tokens }, deltas)
  else
    pure sd

/-- `_takeAssets(assets)`, from the zero deltas a transaction starts with. -/
def takeAssets (s : State) (assets : List Payload.Asset) : Except Revert (State × DeltaTracker) :=
  assets.foldlM (take angstrom uniV4) (s, DeltaTracker.init)

/-- The settlement step of `_updatePool`: `bundleDeltas.sub(asset0, rewardTotal)`. -/
def updatePool (pairs : List (Address × Address)) (deltas : DeltaTracker) (update : PoolUpdate) :
    Except Revert DeltaTracker := do
  let pair ← getPair pairs update.pairIndex
  Prod.snd <$> deltas.sub pair.1 update.rewardTotal

def settleOrderIn (sd : State × DeltaTracker) (signer asset : Address) (amount : Nat)
    (useInternal : Bool) : Except Revert (State × DeltaTracker) := do
  let deltas ← sd.2.add asset amount
  if useInternal then
    let balance ← Checked.sub (sd.1.balances asset signer) amount
    pure ({ sd.1 with balances := setBalance sd.1.balances asset signer balance }, deltas)
  else
    let tokens ← transferToken sd.1.tokens asset signer angstrom amount .transferFromFailed
    pure ({ sd.1 with tokens }, deltas)

def settleOrderOut (sd : State × DeltaTracker) (recipient asset : Address) (amount : Nat)
    (useInternal : Bool) : Except Revert (State × DeltaTracker) := do
  let deltas ← Prod.snd <$> sd.2.sub asset amount
  if useInternal then
    let balance ← Checked.add 256 (sd.1.balances asset recipient) amount
    pure ({ sd.1 with balances := setBalance sd.1.balances asset recipient balance }, deltas)
  else
    let tokens ← transferToken sd.1.tokens asset angstrom recipient amount .transferFailed
    pure ({ sd.1 with tokens }, deltas)

/-- The settlement of `_validateAndExecuteToBOrder`: the gas check, the gas fee taken from the
asset-0 side (added to the input or taken from the output, in the buffer's checked `uint256`
fields), then the input and the output. -/
def validateAndExecuteToBOrder (pairs : List (Address × Address)) (sd : State × DeltaTracker)
    (order : ToBOrder) : Except Revert (State × DeltaTracker) := do
  if order.gasUsedAsset0 > order.maxGasAsset0 then throw .toBGasUsedAboveMax
  let pair ← getPair pairs order.pairIndex
  let assets := getAssets pair order.zeroForOne
  let recipient := if order.recipient = 0 then order.signer else order.recipient
  let quantityIn ← if order.zeroForOne then Checked.add 256 order.quantityIn order.gasUsedAsset0
    else pure order.quantityIn
  let quantityOut ← if order.zeroForOne then pure order.quantityOut
    else Checked.sub order.quantityOut order.gasUsedAsset0
  let sd ← settleOrderIn angstrom sd order.signer assets.1 quantityIn order.useInternal
  settleOrderOut angstrom sd recipient assets.2 quantityOut order.useInternal

/-- `HookBufferLib.tryTrigger(from)`: the hook's calls back into the contract; a hook that fails
reverts the bundle with `InvalidHookReturn`. -/
def tryTrigger (s : State) : Option (List ExternalCall) → Except Revert State
  | none => pure s
  | some calls =>
    match calls.foldlM (callExternal angstrom uniV4) s with
    | .ok s' => pure s'
    | .error _ => throw .invalidHookReturn

/-- The settlement of `_validateAndExecuteUserOrder`: the output is pushed first, as a loan the
hook may use, and the input is pulled after the hook. -/
def validateAndExecuteUserOrder (pairs : List (Address × Address)) (sd : State × DeltaTracker)
    (order : UserOrder) : Except Revert (State × DeltaTracker) := do
  let pair ← getPair pairs order.pairIndex
  let assets := getAssets pair order.zeroForOne
  let recipient := if order.recipient = 0 then order.signer else order.recipient
  let sd ← settleOrderOut angstrom sd recipient assets.2 order.amountOut order.useInternal
  let s ← tryTrigger angstrom uniV4 sd.1 order.hook
  settleOrderIn angstrom (s, sd.2) order.signer assets.1 order.amountIn order.useInternal

/-- One round of the loop of `_saveAndSettle`: the asset's delta must come to exactly what it
saves plus what it settles, and the settled part goes back to the pool manager. -/
def saveAndSettleAsset (sd : State × DeltaTracker) (asset : Payload.Asset) :
    Except Revert (State × DeltaTracker) := do
  let total ← Checked.add 256 asset.save asset.settle
  let result ← sd.2.sub asset.addr total
  if result.1 ≠ 0 then throw (.bundlDeltaUnresolved asset.addr)
  if asset.settle > 0 then
    let tokens ← transferToken sd.1.tokens asset.addr angstrom uniV4 asset.settle .transferFailed
    pure ({ sd.1 with tokens }, result.2)
  else
    pure (sd.1, result.2)

/-- `_saveAndSettle(assets)`; the transient deltas end with the transaction. -/
def saveAndSettle (sd : State × DeltaTracker) (assets : List Payload.Asset) : Except Revert State :=
  Prod.fst <$> assets.foldlM (saveAndSettleAsset angstrom uniV4) sd

/-- The settlement of `unlockCallback`: read and validate the assets and pairs, take, update the
pools, settle the top-of-block orders and then the user orders, and save and settle. -/
def unlockCallback (s : State) (bundle : Bundle) : Except Revert State := do
  let addrs := bundle.assets.map (·.addr)
  AssetLib.validate addrs 0
  PairLib.validate addrs bundle.pairs 0
  let pairs ← bundle.pairs.mapM (resolvePair addrs)
  let sd ← takeAssets angstrom uniV4 s bundle.assets
  let deltas ← bundle.poolUpdates.foldlM (updatePool pairs) sd.2
  let sd ← bundle.toBOrders.foldlM (validateAndExecuteToBOrder angstrom pairs) (sd.1, deltas)
  let sd ← bundle.userOrders.foldlM (validateAndExecuteUserOrder angstrom uniV4 pairs) sd
  saveAndSettle angstrom uniV4 sd bundle.assets

/-- A transaction: a call from outside, or a bundle that the node lock admitted
(`Execution.execute`). -/
inductive Call where
  | external (call : ExternalCall)
  | execute (bundle : Bundle)
  deriving DecidableEq, Repr

def step (s : State) : Call → Except Revert State
  | .external call => callExternal angstrom uniV4 s call
  | .execute bundle => unlockCallback angstrom uniV4 s bundle

def run (s : State) (calls : List Call) : Except Revert State :=
  calls.foldlM (step angstrom uniV4) s

end Bundle

/-! ## The books

A call's change to the surplus, and what the account needs of a call: its amounts are words, as
their Solidity types make them, and the contract is none of its parties. -/

namespace ExternalCall

/-- The change a call from outside makes to the contract's surplus of `asset`. -/
def accrued (asset : Address) : ExternalCall → Int
  | .pullFee _ a amount => if a = asset then -(amount : Int) else 0
  | .beforeRemoveLiquidity _ a rewards => if a = asset then -(rewards : Int) else 0
  | _ => 0

/-- The contract does not deposit, receive a withdrawal or pull a fee itself. -/
def Admissible (angstrom : Address) : ExternalCall → Prop
  | .deposit sender _ _ _ => sender ≠ angstrom
  | .withdraw _ _ recipient _ => recipient ≠ angstrom
  | .pullFee sender _ _ => sender ≠ angstrom
  | _ => True

instance (angstrom : Address) : DecidablePred (Admissible angstrom) := fun call =>
  match call with
  | .deposit sender _ _ _ => inferInstanceAs (Decidable (sender ≠ angstrom))
  | .withdraw _ _ recipient _ => inferInstanceAs (Decidable (recipient ≠ angstrom))
  | .pullFee sender _ _ => inferInstanceAs (Decidable (sender ≠ angstrom))
  | .setController _ _ => inferInstanceAs (Decidable True)
  | .beforeRemoveLiquidity _ _ _ => inferInstanceAs (Decidable True)

end ExternalCall

/-- A top-of-block order neither signed by the contract nor paying it, with word quantities. -/
def ToBOrder.Admissible (angstrom : Address) (order : ToBOrder) : Prop :=
  order.signer ≠ angstrom ∧ order.recipient ≠ angstrom ∧ order.quantityIn < 2 ^ 256 ∧
    order.quantityOut < 2 ^ 256

instance (angstrom : Address) (order : ToBOrder) : Decidable (order.Admissible angstrom) :=
  inferInstanceAs (Decidable (_ ∧ _ ∧ _ ∧ _))

def UserOrder.hookCalls (order : UserOrder) : List ExternalCall := order.hook.getD []

/-- A user order neither signed by the contract nor paying it, with word amounts, whose hook's
calls are admissible. -/
def UserOrder.Admissible (angstrom : Address) (order : UserOrder) : Prop :=
  order.signer ≠ angstrom ∧ order.recipient ≠ angstrom ∧ order.amountIn < 2 ^ 256 ∧
    order.amountOut < 2 ^ 256 ∧ ∀ call ∈ order.hookCalls, call.Admissible angstrom

instance (angstrom : Address) (order : UserOrder) : Decidable (order.Admissible angstrom) :=
  inferInstanceAs (Decidable (_ ∧ _ ∧ _ ∧ _ ∧ _))

namespace Bundle

/-- The first asset of the pair at `index`, as `readFromAndValidate` resolves it. -/
def asset0Of (bundle : Bundle) (index : Nat) : Option Address :=
  bundle.pairs[index]?.bind fun pair => (bundle.assets.map (·.addr))[pair.index0]?

/-- The change a bundle makes to the contract's surplus of `asset`: what it saves, the rewards its
pool updates book, and what its hooks' calls change. -/
def accrued (bundle : Bundle) (asset : Address) : Int :=
  (bundle.assets.map fun entry => if entry.addr = asset then (entry.save : Int) else 0).sum +
    (bundle.poolUpdates.map fun update =>
      if bundle.asset0Of update.pairIndex = some asset then (update.rewardTotal : Int) else 0).sum +
    (bundle.userOrders.map fun order => (order.hookCalls.map (·.accrued asset)).sum).sum

def Admissible (angstrom : Address) (bundle : Bundle) : Prop :=
  (∀ entry ∈ bundle.assets, entry.take < 2 ^ 256) ∧
    (∀ update ∈ bundle.poolUpdates, update.rewardTotal < 2 ^ 256) ∧
    (∀ order ∈ bundle.toBOrders, order.Admissible angstrom) ∧
    ∀ order ∈ bundle.userOrders, order.Admissible angstrom

instance (angstrom : Address) (bundle : Bundle) : Decidable (bundle.Admissible angstrom) :=
  inferInstanceAs (Decidable (_ ∧ _ ∧ _ ∧ _))

end Bundle

namespace Call

def accrued (asset : Address) : Call → Int
  | .external call => call.accrued asset
  | .execute bundle => bundle.accrued asset

def Admissible (angstrom : Address) : Call → Prop
  | .external call => call.Admissible angstrom
  | .execute bundle => bundle.Admissible angstrom

instance (angstrom : Address) : DecidablePred (Admissible angstrom) := fun call =>
  match call with
  | .external call => inferInstanceAs (Decidable (call.Admissible angstrom))
  | .execute bundle => inferInstanceAs (Decidable (bundle.Admissible angstrom))

end Call

section Books

variable (angstrom : Address)

def owed (balances : Address → Address → Nat) (asset : Address) : Int :=
  ∑ owner, (balances asset owner : Int)

/-- What the contract holds of an asset beyond what its internal balances owe. -/
def surplus (s : State) (asset : Address) : Int := s.tokens asset angstrom - owed s.balances asset

/-- During a bundle: the surplus of an asset less what the bundle still owes on it. -/
def held (sd : State × DeltaTracker) (asset : Address) : Int :=
  surplus angstrom sd.1 asset - sd.2.get asset

end Books

/-- The deltas during a bundle: words, and zero on every asset the bundle does not list. -/
def Quiet (addrs : List Address) (deltas : DeltaTracker) : Prop :=
  deltas.WordValued ∧ ∀ a ∉ addrs, deltas.get a = 0

/-! ### Token movements and entries -/

theorem owed_setBalance (balances : Address → Address → Nat) (asset owner : Address) (v : Nat)
    (a : Address) : owed (setBalance balances asset owner v) a =
      owed balances a + if asset = a then (v : Int) - balances asset owner else 0 := by
  unfold owed setBalance
  by_cases ha : a = asset
  · subst ha
    rw [Function.update_self, TokenLedger.sum_update, if_pos rfl]
    ring
  · rw [Function.update_of_ne ha, if_neg (Ne.symm ha), add_zero]

theorem tokens_transferToken {tokens tokens' : Address → Address → Nat} {asset src dst : Address}
    {amount : Nat} {e : Revert} (h : transferToken tokens asset src dst amount e = .ok tokens')
    (a holder : Address) : (tokens' a holder : Int) = tokens a holder -
      (if asset = a ∧ src = holder then amount else 0) +
      (if asset = a ∧ dst = holder then amount else 0) := by
  unfold transferToken at h
  split at h
  · rename_i held hheld
    cases h
    by_cases ha : a = asset
    · subst ha
      simpa [eq_comm] using TokenLedger.transfer_apply hheld holder
    · simp [ha, Ne.symm ha]
  · cases h

section Accounting

variable {angstrom uniV4 : Address}

theorem held_transferIn {tokens tokens' : Address → Address → Nat} {asset src : Address}
    {amount : Nat} {e : Revert} (hsrc : src ≠ angstrom)
    (h : transferToken tokens asset src angstrom amount e = .ok tokens') (a : Address) :
    (tokens' a angstrom : Int) = tokens a angstrom + if asset = a then (amount : Int) else 0 := by
  rw [tokens_transferToken h]
  by_cases ha : asset = a <;> simp [ha, hsrc]

theorem held_transferOut {tokens tokens' : Address → Address → Nat} {asset dst : Address}
    {amount : Nat} {e : Revert} (hdst : dst ≠ angstrom)
    (h : transferToken tokens asset angstrom dst amount e = .ok tokens') (a : Address) :
    (tokens' a angstrom : Int) = tokens a angstrom - if asset = a then (amount : Int) else 0 := by
  rw [tokens_transferToken h]
  by_cases ha : asset = a <;> simp [ha, hdst]

/-! ### What each call does when it goes through -/

variable {s s' : State}

theorem deposit_ok {sender asset recipient : Address} {amount : Nat}
    (h : deposit angstrom s sender asset recipient amount = .ok s') :
    ∃ tokens, transferToken s.tokens asset sender angstrom amount .transferFromFailed = .ok tokens ∧
      s' = { s with
        tokens
        balances := setBalance s.balances asset recipient (s.balances asset recipient + amount) } := by
  unfold deposit at h
  obtain ⟨tokens, htok, h⟩ := Checked.bind_eq_ok.1 h
  obtain ⟨balance, hbal, h⟩ := Checked.bind_eq_ok.1 h
  obtain ⟨-, rfl⟩ := Checked.add_eq_ok.1 hbal
  exact ⟨tokens, htok, (Checked.pure_eq_ok.1 h).symm⟩

theorem withdraw_ok {sender asset recipient : Address} {amount : Nat}
    (h : withdraw angstrom s sender asset recipient amount = .ok s') :
    amount ≤ s.balances asset sender ∧
      ∃ tokens, transferToken s.tokens asset angstrom recipient amount .transferFailed = .ok tokens ∧
        s' = { s with
          tokens
          balances := setBalance s.balances asset sender (s.balances asset sender - amount) } := by
  unfold withdraw at h
  obtain ⟨balance, hbal, h⟩ := Checked.bind_eq_ok.1 h
  obtain ⟨tokens, htok, h⟩ := Checked.bind_eq_ok.1 h
  obtain ⟨hle, rfl⟩ := Checked.sub_eq_ok.1 hbal
  exact ⟨hle, tokens, htok, (Checked.pure_eq_ok.1 h).symm⟩

theorem pullFee_ok {sender asset : Address} {amount : Nat}
    (h : pullFee angstrom s sender asset amount = .ok s') :
    sender = s.controller ∧
      ∃ tokens, transferToken s.tokens asset angstrom sender amount .transferFailed = .ok tokens ∧
        s' = { s with tokens } := by
  unfold pullFee at h
  by_cases hc : sender = s.controller
  · simp only [hc, ne_eq, not_true_eq_false, if_false] at h
    obtain ⟨tokens, htok, h⟩ := Checked.bind_eq_ok.1 h
    exact ⟨hc, tokens, hc ▸ htok, (Checked.pure_eq_ok.1 h).symm⟩
  · simp [hc] at h

theorem setController_ok {sender newController : Address}
    (h : setController s sender newController = .ok s') :
    sender = s.controller ∧ s' = { s with controller := newController } := by
  unfold setController at h
  by_cases hc : sender = s.controller
  · simp only [hc, ne_eq, not_true_eq_false, if_false] at h
    exact ⟨hc, (Checked.pure_eq_ok.1 h).symm⟩
  · simp [hc] at h

theorem beforeRemoveLiquidity_ok {sender currency0 : Address} {rewards : Nat}
    (h : beforeRemoveLiquidity angstrom uniV4 s sender currency0 rewards = .ok s') :
    sender = uniV4 ∧ ((rewards = 0 ∧ s' = s) ∨
      ∃ tokens, transferToken s.tokens currency0 angstrom uniV4 rewards .transferFailed =
        .ok tokens ∧ s' = { s with tokens }) := by
  unfold beforeRemoveLiquidity at h
  by_cases hc : sender = uniV4
  · simp only [hc, ne_eq, not_true_eq_false, if_false] at h
    refine ⟨hc, ?_⟩
    by_cases hr : rewards > 0
    · rw [if_pos hr] at h
      obtain ⟨tokens, htok, h⟩ := Checked.bind_eq_ok.1 h
      exact .inr ⟨tokens, htok, (Checked.pure_eq_ok.1 h).symm⟩
    · rw [if_neg hr] at h
      exact .inl ⟨by omega, (Checked.pure_eq_ok.1 h).symm⟩
  · simp [hc] at h

/-! ### The surplus across calls from outside -/

/-- A deposit or a withdrawal moves the contract's tokens and its books by the same amount, a fee
pull or a reward payment takes its amount out of the surplus, and `setController` moves nothing. -/
theorem surplus_callExternal (hne : angstrom ≠ uniV4) {call : ExternalCall}
    (hcall : call.Admissible angstrom) (h : callExternal angstrom uniV4 s call = .ok s')
    (a : Address) : surplus angstrom s' a = surplus angstrom s a + call.accrued a := by
  cases call with
  | deposit sender asset recipient amount =>
    obtain ⟨tokens, htok, rfl⟩ := deposit_ok h
    simp only [surplus, held_transferIn hcall htok, owed_setBalance, ExternalCall.accrued]
    split_ifs <;> push_cast <;> ring
  | withdraw sender asset recipient amount =>
    obtain ⟨hle, tokens, htok, rfl⟩ := withdraw_ok h
    simp only [surplus, held_transferOut hcall htok, owed_setBalance, ExternalCall.accrued]
    split_ifs <;> push_cast [hle] <;> ring
  | pullFee sender asset amount =>
    obtain ⟨-, tokens, htok, rfl⟩ := pullFee_ok h
    simp only [surplus, held_transferOut hcall htok, ExternalCall.accrued]
    split_ifs <;> ring
  | setController sender newController =>
    obtain ⟨-, rfl⟩ := setController_ok h
    simp [surplus, ExternalCall.accrued]
  | beforeRemoveLiquidity sender currency0 rewards =>
    obtain ⟨-, ⟨rfl, rfl⟩ | ⟨tokens, htok, rfl⟩⟩ := beforeRemoveLiquidity_ok h
    · simp [ExternalCall.accrued]
    · simp only [surplus, held_transferOut (Ne.symm hne) htok, ExternalCall.accrued]
      split_ifs <;> ring

theorem surplus_foldlM_callExternal (hne : angstrom ≠ uniV4) {calls : List ExternalCall}
    (hcalls : ∀ call ∈ calls, call.Admissible angstrom)
    (h : calls.foldlM (callExternal angstrom uniV4) s = .ok s') (a : Address) :
    surplus angstrom s' a = surplus angstrom s a + (calls.map (·.accrued a)).sum := by
  have hstep : ∀ x call x', True → call.Admissible angstrom →
      callExternal angstrom uniV4 x call = .ok x' →
        True ∧ surplus angstrom x' a = surplus angstrom x a + call.accrued a :=
    fun _ _ _ _ hcall hx => ⟨trivial, surplus_callExternal hne hcall hx a⟩
  exact (Transition.foldlM_accumulate _ _ _ _ hstep trivial hcalls h).2

/-! ### What each phase of a bundle does when it goes through -/

variable {sd sd' : State × DeltaTracker}

theorem getPair_eq_ok {pairs : List (Address × Address)} {index : Nat} {pair : Address × Address} :
    getPair pairs index = .ok pair ↔ pairs[index]? = some pair := by
  unfold getPair
  split <;> simp_all

theorem take_ok {asset : Payload.Asset} (h : take angstrom uniV4 sd asset = .ok sd') :
    (asset.take = 0 ∧ sd' = sd) ∨ ∃ tokens deltas,
      transferToken sd.1.tokens asset.addr uniV4 angstrom asset.take .transferFailed =
        .ok tokens ∧ sd.2.add asset.addr asset.take = .ok deltas ∧
      sd' = ({ sd.1 with tokens }, deltas) := by
  unfold take at h
  by_cases ht : asset.take > 0
  · rw [if_pos ht] at h
    obtain ⟨tokens, htok, h⟩ := Checked.bind_eq_ok.1 h
    obtain ⟨deltas, hdel, h⟩ := Checked.bind_eq_ok.1 h
    exact .inr ⟨tokens, deltas, htok, hdel, (Checked.pure_eq_ok.1 h).symm⟩
  · rw [if_neg ht] at h
    exact .inl ⟨by omega, (Checked.pure_eq_ok.1 h).symm⟩

theorem updatePool_ok {pairs : List (Address × Address)} {deltas deltas' : DeltaTracker}
    {update : PoolUpdate} (h : updatePool pairs deltas update = .ok deltas') :
    ∃ pair z, pairs[update.pairIndex]? = some pair ∧
      deltas.sub pair.1 update.rewardTotal = .ok (z, deltas') := by
  unfold updatePool at h
  obtain ⟨pair, hpair, h⟩ := Checked.bind_eq_ok.1 h
  obtain ⟨⟨z, d⟩, hsub, rfl⟩ := Checked.map_eq_ok.1 h
  exact ⟨pair, z, getPair_eq_ok.1 hpair, hsub⟩

theorem settleOrderIn_ok {signer asset : Address} {amount : Nat} {useInternal : Bool}
    (h : settleOrderIn angstrom sd signer asset amount useInternal = .ok sd') :
    ∃ deltas, sd.2.add asset amount = .ok deltas ∧
      ((useInternal = true ∧ amount ≤ sd.1.balances asset signer ∧
          sd' = ({ sd.1 with
            balances := setBalance sd.1.balances asset signer
              (sd.1.balances asset signer - amount) }, deltas)) ∨
        (useInternal = false ∧ ∃ tokens, transferToken sd.1.tokens asset signer angstrom amount
          .transferFromFailed = .ok tokens ∧ sd' = ({ sd.1 with tokens }, deltas))) := by
  unfold settleOrderIn at h
  obtain ⟨deltas, hdel, h⟩ := Checked.bind_eq_ok.1 h
  refine ⟨deltas, hdel, ?_⟩
  cases useInternal with
  | true =>
    obtain ⟨balance, hbal, h⟩ := Checked.bind_eq_ok.1 h
    obtain ⟨hle, rfl⟩ := Checked.sub_eq_ok.1 hbal
    exact .inl ⟨rfl, hle, (Checked.pure_eq_ok.1 h).symm⟩
  | false =>
    obtain ⟨tokens, htok, h⟩ := Checked.bind_eq_ok.1 h
    exact .inr ⟨rfl, tokens, htok, (Checked.pure_eq_ok.1 h).symm⟩

theorem settleOrderOut_ok {recipient asset : Address} {amount : Nat} {useInternal : Bool}
    (h : settleOrderOut angstrom sd recipient asset amount useInternal = .ok sd') :
    ∃ z deltas, sd.2.sub asset amount = .ok (z, deltas) ∧
      ((useInternal = true ∧ sd' = ({ sd.1 with
            balances := setBalance sd.1.balances asset recipient
              (sd.1.balances asset recipient + amount) }, deltas)) ∨
        (useInternal = false ∧ ∃ tokens, transferToken sd.1.tokens asset angstrom recipient amount
          .transferFailed = .ok tokens ∧ sd' = ({ sd.1 with tokens }, deltas))) := by
  unfold settleOrderOut at h
  obtain ⟨deltas, hdel, h⟩ := Checked.bind_eq_ok.1 h
  obtain ⟨⟨z, d⟩, hsub, rfl⟩ := Checked.map_eq_ok.1 hdel
  refine ⟨z, d, hsub, ?_⟩
  cases useInternal with
  | true =>
    obtain ⟨balance, hbal, h⟩ := Checked.bind_eq_ok.1 h
    obtain ⟨-, rfl⟩ := Checked.add_eq_ok.1 hbal
    exact .inl ⟨rfl, (Checked.pure_eq_ok.1 h).symm⟩
  | false =>
    obtain ⟨tokens, htok, h⟩ := Checked.bind_eq_ok.1 h
    exact .inr ⟨rfl, tokens, htok, (Checked.pure_eq_ok.1 h).symm⟩

theorem validateAndExecuteToBOrder_ok {pairs : List (Address × Address)} {order : ToBOrder}
    (h : validateAndExecuteToBOrder angstrom pairs sd order = .ok sd') :
    ∃ pair, pairs[order.pairIndex]? = some pair ∧ ∃ quantityIn quantityOut mid,
      (quantityIn = order.quantityIn ∨ quantityIn < 2 ^ 256) ∧ quantityOut ≤ order.quantityOut ∧
      settleOrderIn angstrom sd order.signer (getAssets pair order.zeroForOne).1 quantityIn
        order.useInternal = .ok mid ∧
      settleOrderOut angstrom mid (if order.recipient = 0 then order.signer else order.recipient)
        (getAssets pair order.zeroForOne).2 quantityOut order.useInternal = .ok sd' := by
  unfold validateAndExecuteToBOrder at h
  by_cases hgas : order.gasUsedAsset0 > order.maxGasAsset0
  · simp [hgas] at h
  simp only [if_neg hgas] at h
  obtain ⟨pair, hpair, h⟩ := Checked.bind_eq_ok.1 h
  refine ⟨pair, getPair_eq_ok.1 hpair, ?_⟩
  cases hzf : order.zeroForOne
  · -- selling asset 1: the gas fee comes off the output
    simp only [hzf, Bool.false_eq_true, ↓reduceIte] at h
    obtain ⟨quantityIn, hin, h₁⟩ := Checked.bind_eq_ok.1 h
    obtain ⟨quantityOut, hout, h₂⟩ := Checked.bind_eq_ok.1 h₁
    obtain ⟨-, rfl⟩ := Checked.sub_eq_ok.1 hout
    obtain ⟨mid, hmid, hrest⟩ := Checked.bind_eq_ok.1 h₂
    exact ⟨quantityIn, _, mid, .inl (Checked.pure_eq_ok.1 hin).symm, Nat.sub_le _ _, hmid, hrest⟩
  · -- selling asset 0: the gas fee is added to the input, a `uint256`
    simp only [hzf, ↓reduceIte] at h
    obtain ⟨quantityIn, hin, h₁⟩ := Checked.bind_eq_ok.1 h
    obtain ⟨hfit, rfl⟩ := Checked.add_eq_ok.1 hin
    obtain ⟨quantityOut, hout, h₂⟩ := Checked.bind_eq_ok.1 h₁
    obtain ⟨mid, hmid, hrest⟩ := Checked.bind_eq_ok.1 h₂
    exact ⟨_, quantityOut, mid, .inr hfit, (Checked.pure_eq_ok.1 hout).symm.le, hmid, hrest⟩

theorem tryTrigger_ok {s s' : State} {hook : Option (List ExternalCall)}
    (h : tryTrigger angstrom uniV4 s hook = .ok s') :
    (hook.getD []).foldlM (callExternal angstrom uniV4) s = .ok s' := by
  cases hook with
  | none => exact h
  | some calls =>
    rw [Option.getD_some]
    cases hrun : calls.foldlM (callExternal angstrom uniV4) s with
    | ok s'' =>
      simp only [tryTrigger, hrun] at h
      rw [← Checked.pure_eq_ok.1 h]
    | error e => simp [tryTrigger, hrun] at h

theorem validateAndExecuteUserOrder_ok {pairs : List (Address × Address)} {order : UserOrder}
    (h : validateAndExecuteUserOrder angstrom uniV4 pairs sd order = .ok sd') :
    ∃ pair, pairs[order.pairIndex]? = some pair ∧ ∃ mid s,
      settleOrderOut angstrom sd (if order.recipient = 0 then order.signer else order.recipient)
        (getAssets pair order.zeroForOne).2 order.amountOut order.useInternal = .ok mid ∧
      order.hookCalls.foldlM (callExternal angstrom uniV4) mid.1 = .ok s ∧
      settleOrderIn angstrom (s, mid.2) order.signer (getAssets pair order.zeroForOne).1
        order.amountIn order.useInternal = .ok sd' := by
  unfold validateAndExecuteUserOrder at h
  obtain ⟨pair, hpair, h⟩ := Checked.bind_eq_ok.1 h
  obtain ⟨mid, hmid, h⟩ := Checked.bind_eq_ok.1 h
  obtain ⟨s, hs, h⟩ := Checked.bind_eq_ok.1 h
  exact ⟨pair, getPair_eq_ok.1 hpair, mid, s, hmid, tryTrigger_ok hs, h⟩

theorem saveAndSettleAsset_ok {asset : Payload.Asset}
    (h : saveAndSettleAsset angstrom uniV4 sd asset = .ok sd') :
    asset.save + asset.settle < 2 ^ 256 ∧ ∃ deltas,
      sd.2.sub asset.addr (asset.save + asset.settle) = .ok (0, deltas) ∧
      ((asset.settle = 0 ∧ sd' = (sd.1, deltas)) ∨
        ∃ tokens, transferToken sd.1.tokens asset.addr angstrom uniV4 asset.settle
          .transferFailed = .ok tokens ∧ sd' = ({ sd.1 with tokens }, deltas)) := by
  unfold saveAndSettleAsset at h
  obtain ⟨total, htotal, h⟩ := Checked.bind_eq_ok.1 h
  obtain ⟨hfit, rfl⟩ := Checked.add_eq_ok.1 htotal
  obtain ⟨⟨z, deltas⟩, hsub, h⟩ := Checked.bind_eq_ok.1 h
  by_cases hz : z = 0
  · subst hz
    simp only [ne_eq, not_true_eq_false, if_false] at h
    refine ⟨hfit, deltas, hsub, ?_⟩
    by_cases hs : asset.settle > 0
    · rw [if_pos hs] at h
      obtain ⟨tokens, htok, h⟩ := Checked.bind_eq_ok.1 h
      exact .inr ⟨tokens, htok, (Checked.pure_eq_ok.1 h).symm⟩
    · rw [if_neg hs] at h
      exact .inl ⟨by omega, (Checked.pure_eq_ok.1 h).symm⟩
  · simp [hz] at h

theorem unlockCallback_ok {s s' : State} {bundle : Bundle}
    (h : unlockCallback angstrom uniV4 s bundle = .ok s') :
    ∃ pairs, bundle.pairs.mapM (resolvePair (bundle.assets.map (·.addr))) = .ok pairs ∧
    ∃ sd₁, takeAssets angstrom uniV4 s bundle.assets = .ok sd₁ ∧
    ∃ deltas, bundle.poolUpdates.foldlM (updatePool pairs) sd₁.2 = .ok deltas ∧
    ∃ sd₂, bundle.toBOrders.foldlM (validateAndExecuteToBOrder angstrom pairs) (sd₁.1, deltas) =
      .ok sd₂ ∧
    ∃ sd₃, bundle.userOrders.foldlM (validateAndExecuteUserOrder angstrom uniV4 pairs) sd₂ =
      .ok sd₃ ∧
    saveAndSettle angstrom uniV4 sd₃ bundle.assets = .ok s' := by
  unfold unlockCallback at h
  obtain ⟨-, -, h⟩ := Checked.bind_eq_ok.1 h
  obtain ⟨-, -, h⟩ := Checked.bind_eq_ok.1 h
  obtain ⟨pairs, hpairs, h⟩ := Checked.bind_eq_ok.1 h
  obtain ⟨sd₁, h₁, h⟩ := Checked.bind_eq_ok.1 h
  obtain ⟨deltas, hdel, h⟩ := Checked.bind_eq_ok.1 h
  obtain ⟨sd₂, h₂, h⟩ := Checked.bind_eq_ok.1 h
  obtain ⟨sd₃, h₃, h⟩ := Checked.bind_eq_ok.1 h
  exact ⟨pairs, hpairs, sd₁, h₁, deltas, hdel, sd₂, h₂, sd₃, h₃, h⟩

/-! ### The deltas and `held` through a bundle -/

section Quiet

variable {addrs : List Address} {d d' : DeltaTracker} {asset : Address} {amount : Nat}

theorem quiet_init (addrs : List Address) : Quiet addrs DeltaTracker.init :=
  ⟨DeltaTracker.wordValued_init, fun _ _ => rfl⟩

theorem Quiet.add (hq : Quiet addrs d) (hmem : asset ∈ addrs) (hy : amount < 2 ^ 256)
    (h : d.add asset amount = .ok d') :
    Quiet addrs d' ∧ ∀ b, d'.get b = d.get b + if asset = b then (amount : Int) else 0 := by
  obtain ⟨hw, hget⟩ := DeltaTracker.add_ok hq.1 hy h
  refine ⟨⟨hw, fun b hb => ?_⟩, hget⟩
  have hne : asset ≠ b := fun he => hb (he ▸ hmem)
  rw [hget, hq.2 b hb, if_neg hne, add_zero]

theorem Quiet.sub {z : Nat} (hq : Quiet addrs d) (hmem : asset ∈ addrs) (hy : amount < 2 ^ 256)
    (h : d.sub asset amount = .ok (z, d')) :
    Quiet addrs d' ∧ ∀ b, d'.get b = d.get b + if asset = b then -(amount : Int) else 0 := by
  obtain ⟨hw, hget, -⟩ := DeltaTracker.sub_ok hq.1 hy h
  refine ⟨⟨hw, fun b hb => ?_⟩, hget⟩
  have hne : asset ≠ b := fun he => hb (he ▸ hmem)
  rw [hget, hq.2 b hb, if_neg hne, add_zero]

end Quiet

variable {addrs : List Address}

theorem held_take (hne : angstrom ≠ uniV4) {asset : Payload.Asset} (hq : Quiet addrs sd.2)
    (hmem : asset.addr ∈ addrs) (hy : asset.take < 2 ^ 256)
    (h : take angstrom uniV4 sd asset = .ok sd') :
    Quiet addrs sd'.2 ∧ ∀ a, held angstrom sd' a = held angstrom sd a := by
  obtain ⟨-, rfl⟩ | ⟨tokens, deltas, htok, hdel, rfl⟩ := take_ok h
  · exact ⟨hq, fun _ => rfl⟩
  · obtain ⟨hq', hget⟩ := hq.add hmem hy hdel
    refine ⟨hq', fun a => ?_⟩
    simp only [held, surplus, hget, held_transferIn (Ne.symm hne) htok]
    ring

theorem held_settleOrderIn {signer asset : Address} {amount : Nat} {useInternal : Bool}
    (hq : Quiet addrs sd.2) (hmem : asset ∈ addrs) (hy : amount < 2 ^ 256)
    (hsigner : signer ≠ angstrom)
    (h : settleOrderIn angstrom sd signer asset amount useInternal = .ok sd') :
    Quiet addrs sd'.2 ∧ ∀ a, held angstrom sd' a = held angstrom sd a := by
  obtain ⟨deltas, hdel, ⟨-, hle, rfl⟩ | ⟨-, tokens, htok, rfl⟩⟩ := settleOrderIn_ok h
  all_goals obtain ⟨hq', hget⟩ := hq.add hmem hy hdel
  · refine ⟨hq', fun a => ?_⟩
    simp only [held, surplus, hget, owed_setBalance]
    split_ifs <;> push_cast [hle] <;> ring
  · refine ⟨hq', fun a => ?_⟩
    simp only [held, surplus, hget, held_transferIn hsigner htok]
    ring

theorem held_settleOrderOut {recipient asset : Address} {amount : Nat} {useInternal : Bool}
    (hq : Quiet addrs sd.2) (hmem : asset ∈ addrs) (hy : amount < 2 ^ 256)
    (hrecipient : recipient ≠ angstrom)
    (h : settleOrderOut angstrom sd recipient asset amount useInternal = .ok sd') :
    Quiet addrs sd'.2 ∧ ∀ a, held angstrom sd' a = held angstrom sd a := by
  obtain ⟨z, deltas, hdel, ⟨-, rfl⟩ | ⟨-, tokens, htok, rfl⟩⟩ := settleOrderOut_ok h
  all_goals obtain ⟨hq', hget⟩ := hq.sub hmem hy hdel
  · refine ⟨hq', fun a => ?_⟩
    simp only [held, surplus, hget, owed_setBalance]
    split_ifs <;> push_cast <;> ring
  · refine ⟨hq', fun a => ?_⟩
    simp only [held, surplus, hget, held_transferOut hrecipient htok]
    split_ifs <;> ring

theorem getAssets_mem {pair : Address × Address} (hmem : pair.1 ∈ addrs ∧ pair.2 ∈ addrs)
    (zeroToOne : Bool) :
    (getAssets pair zeroToOne).1 ∈ addrs ∧ (getAssets pair zeroToOne).2 ∈ addrs := by
  cases zeroToOne
  · exact ⟨hmem.2, hmem.1⟩
  · exact hmem

theorem recipient_ne {signer recipient : Address} (hsigner : signer ≠ angstrom)
    (hrecipient : recipient ≠ angstrom) :
    (if recipient = 0 then signer else recipient) ≠ angstrom := by
  split <;> assumption

section Orders

variable {pairs : List (Address × Address)} (hpairs : ∀ pair ∈ pairs, pair.1 ∈ addrs ∧ pair.2 ∈ addrs)
include hpairs

theorem held_validateAndExecuteToBOrder {order : ToBOrder} (ho : order.Admissible angstrom)
    (hq : Quiet addrs sd.2) (h : validateAndExecuteToBOrder angstrom pairs sd order = .ok sd') :
    Quiet addrs sd'.2 ∧ ∀ a, held angstrom sd' a = held angstrom sd a := by
  obtain ⟨pair, hpair, quantityIn, quantityOut, mid, hin, hout, hmid, hrest⟩ :=
    validateAndExecuteToBOrder_ok h
  obtain ⟨hsigner, hrecipient, hyIn, hyOut⟩ := ho
  have hassets := getAssets_mem (hpairs pair (List.mem_of_getElem? hpair)) order.zeroForOne
  have hyIn' : quantityIn < 2 ^ 256 := by
    rcases hin with rfl | hlt
    · exact hyIn
    · exact hlt
  obtain ⟨hq₁, hheld₁⟩ := held_settleOrderIn hq hassets.1 hyIn' hsigner hmid
  obtain ⟨hq₂, hheld₂⟩ := held_settleOrderOut hq₁ hassets.2 (lt_of_le_of_lt hout hyOut)
    (recipient_ne hsigner hrecipient) hrest
  exact ⟨hq₂, fun a => (hheld₂ a).trans (hheld₁ a)⟩

theorem held_validateAndExecuteUserOrder (hne : angstrom ≠ uniV4) {order : UserOrder}
    (ho : order.Admissible angstrom) (hq : Quiet addrs sd.2)
    (h : validateAndExecuteUserOrder angstrom uniV4 pairs sd order = .ok sd') :
    Quiet addrs sd'.2 ∧
      ∀ a, held angstrom sd' a = held angstrom sd a + (order.hookCalls.map (·.accrued a)).sum := by
  obtain ⟨pair, hpair, mid, s, hout, hhook, hin⟩ := validateAndExecuteUserOrder_ok h
  obtain ⟨hsigner, hrecipient, hyIn, hyOut, hcalls⟩ := ho
  have hassets := getAssets_mem (hpairs pair (List.mem_of_getElem? hpair)) order.zeroForOne
  obtain ⟨hq₁, hheld₁⟩ := held_settleOrderOut hq hassets.2 hyOut
    (recipient_ne hsigner hrecipient) hout
  obtain ⟨hq₂, hheld₂⟩ := held_settleOrderIn (show Quiet addrs (s, mid.2).2 from hq₁) hassets.1
    hyIn hsigner hin
  refine ⟨hq₂, fun a => ?_⟩
  have hs := surplus_foldlM_callExternal hne hcalls hhook a
  rw [hheld₂ a, ← hheld₁ a]
  simp only [held, hs]
  ring

theorem held_foldlM_toBOrders {orders : List ToBOrder}
    (ho : ∀ order ∈ orders, order.Admissible angstrom) (hq : Quiet addrs sd.2)
    (h : orders.foldlM (validateAndExecuteToBOrder angstrom pairs) sd = .ok sd') (a : Address) :
    Quiet addrs sd'.2 ∧ held angstrom sd' a = held angstrom sd a := by
  have hstep : ∀ x order x', Quiet addrs x.2 → order.Admissible angstrom →
      validateAndExecuteToBOrder angstrom pairs x order = .ok x' →
        Quiet addrs x'.2 ∧ held angstrom x' a = held angstrom x a + 0 :=
    fun _ _ _ hx horder hok => by
      obtain ⟨hq', hheld⟩ := held_validateAndExecuteToBOrder hpairs horder hx hok
      exact ⟨hq', by rw [hheld a, add_zero]⟩
  obtain ⟨hq', hheld⟩ := Transition.foldlM_accumulate _ _ _ _ hstep hq ho h
  exact ⟨hq', by simpa using hheld⟩

theorem held_foldlM_userOrders (hne : angstrom ≠ uniV4) {orders : List UserOrder}
    (ho : ∀ order ∈ orders, order.Admissible angstrom) (hq : Quiet addrs sd.2)
    (h : orders.foldlM (validateAndExecuteUserOrder angstrom uniV4 pairs) sd = .ok sd')
    (a : Address) :
    Quiet addrs sd'.2 ∧ held angstrom sd' a = held angstrom sd a +
      (orders.map fun order => (order.hookCalls.map (·.accrued a)).sum).sum := by
  have hstep : ∀ x order x', Quiet addrs x.2 → order.Admissible angstrom →
      validateAndExecuteUserOrder angstrom uniV4 pairs x order = .ok x' →
        Quiet addrs x'.2 ∧
          held angstrom x' a = held angstrom x a + (order.hookCalls.map (·.accrued a)).sum :=
    fun _ _ _ hx horder hok => by
      obtain ⟨hq', hheld⟩ := held_validateAndExecuteUserOrder hpairs hne horder hx hok
      exact ⟨hq', hheld a⟩
  exact Transition.foldlM_accumulate _ _ _ _ hstep hq ho h

theorem get_foldlM_updatePool {updates : List PoolUpdate} {d d' : DeltaTracker}
    (hy : ∀ update ∈ updates, update.rewardTotal < 2 ^ 256) (hq : Quiet addrs d)
    (h : updates.foldlM (updatePool pairs) d = .ok d') (a : Address) :
    Quiet addrs d' ∧ -d'.get a = -d.get a + (updates.map fun update =>
      if pairs[update.pairIndex]?.map Prod.fst = some a then (update.rewardTotal : Int)
      else 0).sum := by
  have hstep : ∀ x update x', Quiet addrs x → update.rewardTotal < 2 ^ 256 →
      updatePool pairs x update = .ok x' → Quiet addrs x' ∧ -x'.get a = -x.get a +
        if pairs[update.pairIndex]?.map Prod.fst = some a then (update.rewardTotal : Int)
        else 0 :=
    fun _ _ _ hx hyu hok => by
      obtain ⟨pair, z, hpair, hsub⟩ := updatePool_ok hok
      obtain ⟨hq', hget⟩ := hx.sub (hpairs pair (List.mem_of_getElem? hpair)).1 hyu hsub
      refine ⟨hq', ?_⟩
      simp only [hget, hpair, Option.map_some, Option.some.injEq]
      split_ifs <;> ring
  exact Transition.foldlM_accumulate _ _ _ _ hstep hq hy h

end Orders

theorem held_takeAssets (hne : angstrom ≠ uniV4) {s : State} {assets : List Payload.Asset}
    (hy : ∀ entry ∈ assets, entry.take < 2 ^ 256)
    (h : takeAssets angstrom uniV4 s assets = .ok sd') (a : Address) :
    Quiet (assets.map (·.addr)) sd'.2 ∧ held angstrom sd' a = surplus angstrom s a := by
  have hstep : ∀ x (entry : Payload.Asset) x', Quiet (assets.map (·.addr)) x.2 →
      entry.addr ∈ assets.map (·.addr) ∧ entry.take < 2 ^ 256 →
      take angstrom uniV4 x entry = .ok x' →
        Quiet (assets.map (·.addr)) x'.2 ∧ held angstrom x' a = held angstrom x a + 0 :=
    fun _ _ _ hx hentry hok => by
      obtain ⟨hq', hheld⟩ := held_take hne hx hentry.1 hentry.2 hok
      exact ⟨hq', by rw [hheld a, add_zero]⟩
  obtain ⟨hq', hheld⟩ := Transition.foldlM_accumulate _ _ _ _ hstep
    (quiet_init (assets.map (·.addr)))
    (fun entry hentry => ⟨List.mem_map_of_mem hentry, hy entry hentry⟩) h
  refine ⟨hq', ?_⟩
  simpa [held] using hheld

theorem held_saveAndSettleAsset (hne : angstrom ≠ uniV4) {asset : Payload.Asset}
    (hw : sd.2.WordValued) (h : saveAndSettleAsset angstrom uniV4 sd asset = .ok sd') :
    sd'.2.WordValued ∧ sd'.2.get asset.addr = 0 ∧ (∀ b ≠ asset.addr, sd'.2.get b = sd.2.get b) ∧
      ∀ a, held angstrom sd' a = held angstrom sd a +
        if asset.addr = a then (asset.save : Int) else 0 := by
  obtain ⟨hfit, deltas, hsub, hsettle⟩ := saveAndSettleAsset_ok h
  obtain ⟨hw', hget, hzero⟩ := DeltaTracker.sub_ok hw hfit hsub
  have hother : ∀ b ≠ asset.addr, deltas.get b = sd.2.get b := fun b hb => by
    rw [hget, if_neg (Ne.symm hb), add_zero]
  rcases hsettle with ⟨hs, rfl⟩ | ⟨tokens, htok, rfl⟩
  · refine ⟨hw', hzero.trans rfl, hother, fun a => ?_⟩
    simp only [held, hget, hs]
    split_ifs <;> push_cast <;> ring
  · refine ⟨hw', hzero.trans rfl, hother, fun a => ?_⟩
    simp only [held, surplus, hget, held_transferOut (Ne.symm hne) htok]
    split_ifs <;> push_cast <;> ring

theorem held_foldlM_saveAndSettleAsset (hne : angstrom ≠ uniV4) :
    ∀ {assets : List Payload.Asset} {sd sd' : State × DeltaTracker}, sd.2.WordValued →
      assets.foldlM (saveAndSettleAsset angstrom uniV4) sd = .ok sd' →
      (∀ a ∈ assets.map (·.addr), sd'.2.get a = 0) ∧
      (∀ a ∉ assets.map (·.addr), sd'.2.get a = sd.2.get a) ∧
      ∀ a, held angstrom sd' a = held angstrom sd a +
        (assets.map fun entry => if entry.addr = a then (entry.save : Int) else 0).sum := by
  intro assets
  induction assets with
  | nil =>
    intro sd sd' _ h
    cases h
    simp
  | cons asset assets ih =>
    intro sd sd' hw h
    rw [List.foldlM_cons] at h
    obtain ⟨mid, hmid, hrest⟩ := Checked.bind_eq_ok.1 h
    obtain ⟨hw₁, hzero₁, hother₁, hheld₁⟩ := held_saveAndSettleAsset hne hw hmid
    obtain ⟨hzero, hother, hheld⟩ := ih hw₁ hrest
    refine ⟨fun a ha => ?_, fun a ha => ?_, fun a => ?_⟩
    · -- an asset settled later is cleared then; this one, if not settled again, stays cleared
      by_cases hlater : a ∈ assets.map (·.addr)
      · exact hzero a hlater
      · rw [hother a hlater]
        simp only [List.map_cons, List.mem_cons] at ha
        rcases ha with rfl | ha
        · exact hzero₁
        · exact absurd ha hlater
    · simp only [List.map_cons, List.mem_cons, not_or] at ha
      rw [hother a ha.2, hother₁ a ha.1]
    · rw [hheld a, hheld₁ a, List.map_cons, List.sum_cons, add_assoc]

theorem mapM_resolvePair {addrs : List Address} :
    ∀ {ps : List Payload.Pair} {pairs : List (Address × Address)},
      ps.mapM (resolvePair addrs) = .ok pairs →
      (∀ pair ∈ pairs, pair.1 ∈ addrs ∧ pair.2 ∈ addrs) ∧
        ∀ i : Nat, pairs[i]?.map Prod.fst = ps[i]?.bind fun p : Payload.Pair => addrs[p.index0]? := by
  intro ps
  induction ps with
  | nil =>
    intro pairs h
    cases h
    simp
  | cons p ps ih =>
    intro pairs h
    rw [List.mapM_cons] at h
    obtain ⟨r, hr, h⟩ := Checked.bind_eq_ok.1 h
    obtain ⟨rs, hrs, h⟩ := Checked.bind_eq_ok.1 h
    cases Checked.pure_eq_ok.1 h
    obtain ⟨hmem, hidx⟩ := ih hrs
    unfold resolvePair at hr
    obtain ⟨a0, h0, hr⟩ := Checked.bind_eq_ok.1 hr
    obtain ⟨a1, h1, hr⟩ := Checked.bind_eq_ok.1 hr
    cases Checked.pure_eq_ok.1 hr
    have h0' := AssetLib.get_eq_ok.1 h0
    have h1' := AssetLib.get_eq_ok.1 h1
    refine ⟨fun pair hpair => ?_, fun i => ?_⟩
    · rcases List.mem_cons.1 hpair with rfl | hpair
      · exact ⟨List.mem_of_getElem? h0', List.mem_of_getElem? h1'⟩
      · exact hmem pair hpair
    · cases i with
      | zero => simp [h0']
      | succ i => simpa using hidx i

/-- A bundle that goes through adds to each asset's surplus what it saves and the rewards its
pool updates book, and moves it by what its hooks' calls change. -/
theorem surplus_unlockCallback (hne : angstrom ≠ uniV4) {s s' : State} {bundle : Bundle}
    (hb : bundle.Admissible angstrom) (h : unlockCallback angstrom uniV4 s bundle = .ok s')
    (a : Address) : surplus angstrom s' a = surplus angstrom s a + bundle.accrued a := by
  obtain ⟨hyTake, hyReward, hToB, hUser⟩ := hb
  obtain ⟨pairs, hpairs, sd₁, h₁, deltas, hdel, sd₂, h₂, sd₃, h₃, h₄⟩ := unlockCallback_ok h
  obtain ⟨hmem, hasset0⟩ := mapM_resolvePair hpairs
  obtain ⟨hq₁, hheld₁⟩ := held_takeAssets hne hyTake h₁ a
  obtain ⟨hq₂, hget₂⟩ := get_foldlM_updatePool hmem hyReward hq₁ hdel a
  obtain ⟨hq₃, hheld₃⟩ := held_foldlM_toBOrders hmem hToB hq₂ h₂ a
  obtain ⟨hq₄, hheld₄⟩ := held_foldlM_userOrders hmem hne hUser hq₃ h₃ a
  obtain ⟨sd₅, h₅, rfl⟩ := Checked.map_eq_ok.1 h₄
  obtain ⟨hzero, hother, hheld₅⟩ := held_foldlM_saveAndSettleAsset hne hq₄.1 h₅
  -- every delta ends at zero: the listed ones by the final check, the others were never touched
  have hend : sd₅.2.get a = 0 := by
    by_cases ha : a ∈ bundle.assets.map (·.addr)
    · exact hzero a ha
    · rw [hother a ha]
      exact hq₄.2 a ha
  have hrewards : (bundle.poolUpdates.map fun update =>
      if bundle.asset0Of update.pairIndex = some a then (update.rewardTotal : Int) else 0) =
      bundle.poolUpdates.map fun update =>
        if pairs[update.pairIndex]?.map Prod.fst = some a then (update.rewardTotal : Int)
        else 0 := by
    simp only [Bundle.asset0Of, hasset0]
    rfl
  have hpools : held angstrom (sd₁.1, deltas) a = held angstrom sd₁ a +
      (bundle.poolUpdates.map fun update =>
        if pairs[update.pairIndex]?.map Prod.fst = some a then (update.rewardTotal : Int)
        else 0).sum := by
    simp only [held]
    linarith
  have hsurplus : surplus angstrom sd₅.1 a = held angstrom sd₅ a := by
    simp [held, hend]
  rw [hsurplus, hheld₅, hheld₄, hheld₃, hpools, hheld₁, Bundle.accrued, hrewards]
  ring

theorem surplus_step (hne : angstrom ≠ uniV4) {s s' : State} {call : Call}
    (hcall : call.Admissible angstrom) (h : step angstrom uniV4 s call = .ok s') (a : Address) :
    surplus angstrom s' a = surplus angstrom s a + call.accrued a := by
  cases call with
  | external call => exact surplus_callExternal hne hcall h a
  | execute bundle => exact surplus_unlockCallback hne hcall h a

end Accounting

/-- A deployment: the contract at `1`, the pool manager at `2`; `3` holds `1000` of asset `10`,
`4` holds `1000` of asset `11`, and the pool manager a million of each. -/
def sampleState : State where
  tokens asset holder :=
    if holder = 2 then 1000000
    else if asset = 10 ∧ holder = 3 then 1000
    else if asset = 11 ∧ holder = 4 then 1000
    else 0
  balances _ _ := 0
  controller := 5

/-- `3` deposits `500` of asset `10`; a bundle books a reward of `2` on the pool of `10` and `11`
and fills `3`'s internal order of `103` of asset `10` for `100` of asset `11`, borrowed from the
pool manager, while its hook has `4` deposit `50` of asset `11` for `6`; the bundle saves `1` and pays
`100` back; then `3` withdraws what it bought. -/
def sampleCalls : List Call :=
  [.external (.deposit 3 10 3 500),
    .execute
      { assets := [⟨10, 1, 0, 100⟩, ⟨11, 0, 100, 0⟩]
        pairs := [⟨0, 1, 0, 0⟩]
        poolUpdates := [⟨0, 2⟩]
        toBOrders := []
        userOrders := [⟨true, 0, true, 0, some [.deposit 4 11 6 50], 103, 100, 3⟩] },
    .external (.withdraw 3 11 3 100)]

theorem run_sampleCalls : ∃ s', run 1 2 sampleState sampleCalls = .ok s' := by
  have hok : (run 1 2 sampleState sampleCalls).isOk = true := by decide
  cases hrun : run 1 2 sampleState sampleCalls with
  | ok s' => exact ⟨s', rfl⟩
  | error e =>
    rw [hrun] at hok
    cases hok

/-- Over every run of transactions that all go through, each asset's surplus (what the contract
holds of it beyond what its internal balances owe) moves by exactly what the bundles save and the
rewards they book, less the fees pulled and the rewards paid out; deposits, withdrawals and
settlements move the tokens and the books together. -/
theorem surplus_run {angstrom uniV4 : Address} (hne : angstrom ≠ uniV4) {s s' : State}
    {calls : List Call} (hcalls : ∀ call ∈ calls, call.Admissible angstrom)
    (h : run angstrom uniV4 s calls = .ok s') (asset : Address) :
    surplus angstrom s' asset = surplus angstrom s asset + (calls.map (·.accrued asset)).sum := by
  have hstep : ∀ x call x', True → call.Admissible angstrom → step angstrom uniV4 x call = .ok x' →
      True ∧ surplus angstrom x' asset = surplus angstrom x asset + call.accrued asset :=
    fun _ _ _ _ hcall hx => ⟨trivial, surplus_step hne hcall hx asset⟩
  exact (Transition.foldlM_accumulate _ _ _ _ hstep trivial hcalls h).2

theorem surplus_run_sampleCalls : ∃ s', run 1 2 sampleState sampleCalls = .ok s' ∧
    surplus 1 s' 10 = surplus 1 sampleState 10 + (sampleCalls.map (·.accrued 10)).sum := by
  obtain ⟨s', hrun⟩ := run_sampleCalls
  exact ⟨s', hrun, surplus_run (by decide) (by decide) hrun 10⟩

/-! ## Who can take an owner's funds

The contract moves an owner's tokens out only through `transferFrom` in a deposit the owner makes
or in an order the owner signed, and lowers an owner's internal balance only in a withdrawal the
owner makes or in an order the owner signed. -/

namespace ExternalCall

def Debits (owner : Address) : ExternalCall → Prop
  | .deposit sender _ _ _ => sender = owner
  | .withdraw sender _ _ _ => sender = owner
  | _ => False

instance (owner : Address) : DecidablePred (Debits owner) := fun call =>
  match call with
  | .deposit sender _ _ _ => inferInstanceAs (Decidable (sender = owner))
  | .withdraw sender _ _ _ => inferInstanceAs (Decidable (sender = owner))
  | .pullFee _ _ _ => inferInstanceAs (Decidable False)
  | .setController _ _ => inferInstanceAs (Decidable False)
  | .beforeRemoveLiquidity _ _ _ => inferInstanceAs (Decidable False)

end ExternalCall

/-- A user order the owner signed, or whose hook makes a deposit or withdrawal of the owner's. -/
def UserOrder.Debits (owner : Address) (order : UserOrder) : Prop :=
  order.signer = owner ∨ ∃ call ∈ order.hookCalls, call.Debits owner

instance (owner : Address) (order : UserOrder) : Decidable (order.Debits owner) :=
  inferInstanceAs (Decidable (_ ∨ _))

/-- A bundle with an order the owner signed or a hook call of the owner's. -/
def Bundle.Debits (owner : Address) (bundle : Bundle) : Prop :=
  (∃ order ∈ bundle.toBOrders, order.signer = owner) ∨
    ∃ order ∈ bundle.userOrders, order.Debits owner

instance (owner : Address) (bundle : Bundle) : Decidable (bundle.Debits owner) :=
  inferInstanceAs (Decidable (_ ∨ _))

/-- A transaction through which the owner lets the contract take its funds. -/
def Call.Debits (owner : Address) : Call → Prop
  | .external call => call.Debits owner
  | .execute bundle => bundle.Debits owner

instance (owner : Address) : DecidablePred (Call.Debits owner) := fun call =>
  match call with
  | .external call => inferInstanceAs (Decidable (call.Debits owner))
  | .execute bundle => inferInstanceAs (Decidable (bundle.Debits owner))

/-- No internal balance and no token balance of `owner` is lower in `s'` than in `s`. -/
def Grows (owner : Address) (s s' : State) : Prop :=
  ∀ asset, s.balances asset owner ≤ s'.balances asset owner ∧
    s.tokens asset owner ≤ s'.tokens asset owner

theorem Grows.refl (owner : Address) (s : State) : Grows owner s s :=
  fun _ => ⟨le_rfl, le_rfl⟩

theorem Grows.trans {owner : Address} {s₁ s₂ s₃ : State} (h₁ : Grows owner s₁ s₂)
    (h₂ : Grows owner s₂ s₃) : Grows owner s₁ s₃ :=
  fun asset => ⟨(h₁ asset).1.trans (h₂ asset).1, (h₁ asset).2.trans (h₂ asset).2⟩

section Funds

variable {angstrom uniV4 owner : Address}

theorem setBalance_apply (balances : Address → Address → Nat) (asset holder a owner : Address)
    (v : Nat) : setBalance balances asset holder v a owner =
      if asset = a ∧ holder = owner then v else balances a owner := by
  unfold setBalance
  by_cases ha : a = asset
  · subst ha
    by_cases ho : owner = holder
    · subst ho
      simp
    · simp [Function.update_of_ne ho, Ne.symm ho]
  · simp [Function.update_of_ne ha, Ne.symm ha]

theorem le_setBalance (balances : Address → Address → Nat) {asset holder : Address} {v : Nat}
    (hv : holder ≠ owner ∨ balances asset holder ≤ v) (a : Address) :
    balances a owner ≤ setBalance balances asset holder v a owner := by
  rw [setBalance_apply]
  split_ifs with h
  · obtain ⟨rfl, rfl⟩ := h
    exact hv.resolve_left (not_not.2 rfl)
  · exact le_rfl

theorem le_transferToken {tokens tokens' : Address → Address → Nat} {asset src dst : Address}
    {amount : Nat} {e : Revert} (hsrc : src ≠ owner)
    (h : transferToken tokens asset src dst amount e = .ok tokens') (a : Address) :
    tokens a owner ≤ tokens' a owner := by
  have ht := tokens_transferToken h a owner
  rw [if_neg (fun hc => hsrc hc.2)] at ht
  split_ifs at ht <;> omega

theorem grows_foldlM {σ β : Type} (proj : σ → State) (P : β → Prop) {f : σ → β → Except Revert σ}
    (hf : ∀ x b x', P b → f x b = .ok x' → Grows owner (proj x) (proj x')) {l : List β}
    {x x' : σ} (hl : ∀ b ∈ l, P b) (h : l.foldlM f x = .ok x') :
    Grows owner (proj x) (proj x') :=
  Transition.foldlM_invariant (fun y => Grows owner (proj x) (proj y)) P
    (fun _ b _ hy hb hstep => hy.trans (hf _ b _ hb hstep)) (Grows.refl owner (proj x)) hl h

theorem grows_callExternal (hangstrom : angstrom ≠ owner) {s s' : State} {call : ExternalCall}
    (hcall : ¬ call.Debits owner) (h : callExternal angstrom uniV4 s call = .ok s') :
    Grows owner s s' := by
  cases call with
  | deposit sender asset recipient amount =>
    obtain ⟨tokens, htok, rfl⟩ := deposit_ok h
    exact fun a => ⟨le_setBalance _ (.inr (Nat.le_add_right _ _)) a, le_transferToken hcall htok a⟩
  | withdraw sender asset recipient amount =>
    obtain ⟨-, tokens, htok, rfl⟩ := withdraw_ok h
    exact fun a => ⟨le_setBalance _ (.inl hcall) a, le_transferToken hangstrom htok a⟩
  | pullFee sender asset amount =>
    obtain ⟨-, tokens, htok, rfl⟩ := pullFee_ok h
    exact fun a => ⟨le_rfl, le_transferToken hangstrom htok a⟩
  | setController sender newController =>
    obtain ⟨-, rfl⟩ := setController_ok h
    exact Grows.refl owner s
  | beforeRemoveLiquidity sender currency0 rewards =>
    obtain ⟨-, ⟨-, rfl⟩ | ⟨tokens, htok, rfl⟩⟩ := beforeRemoveLiquidity_ok h
    · exact Grows.refl owner _
    · exact fun a => ⟨le_rfl, le_transferToken hangstrom htok a⟩

variable {sd sd' : State × DeltaTracker}

theorem grows_settleOrderIn {signer asset : Address} {amount : Nat} {useInternal : Bool}
    (hsigner : signer ≠ owner)
    (h : settleOrderIn angstrom sd signer asset amount useInternal = .ok sd') :
    Grows owner sd.1 sd'.1 := by
  obtain ⟨deltas, -, ⟨-, -, rfl⟩ | ⟨-, tokens, htok, rfl⟩⟩ := settleOrderIn_ok h
  · exact fun a => ⟨le_setBalance _ (.inl hsigner) a, le_rfl⟩
  · exact fun a => ⟨le_rfl, le_transferToken hsigner htok a⟩

theorem grows_settleOrderOut (hangstrom : angstrom ≠ owner) {recipient asset : Address}
    {amount : Nat} {useInternal : Bool}
    (h : settleOrderOut angstrom sd recipient asset amount useInternal = .ok sd') :
    Grows owner sd.1 sd'.1 := by
  obtain ⟨z, deltas, -, ⟨-, rfl⟩ | ⟨-, tokens, htok, rfl⟩⟩ := settleOrderOut_ok h
  · exact fun a => ⟨le_setBalance _ (.inr (Nat.le_add_right _ _)) a, le_rfl⟩
  · exact fun a => ⟨le_rfl, le_transferToken hangstrom htok a⟩

/-- A bundle without an order the owner signed and without a hook call of the owner's only adds
to the owner's funds: the loans come from the pool manager, the repayments go to it. -/
theorem grows_unlockCallback (hangstrom : angstrom ≠ owner) (huni : uniV4 ≠ owner)
    {s s' : State} {bundle : Bundle} (hb : ¬ bundle.Debits owner)
    (h : unlockCallback angstrom uniV4 s bundle = .ok s') : Grows owner s s' := by
  simp only [Bundle.Debits, not_or, not_exists, not_and] at hb
  obtain ⟨hToB, hUser⟩ := hb
  obtain ⟨pairs, -, sd₁, h₁, deltas, -, sd₂, h₂, sd₃, h₃, h₄⟩ := unlockCallback_ok h
  obtain ⟨sd₅, h₅, rfl⟩ := Checked.map_eq_ok.1 h₄
  have htake : Grows owner s sd₁.1 :=
    grows_foldlM Prod.fst (fun _ => True) (fun _ _ _ _ hok => by
      obtain ⟨-, rfl⟩ | ⟨tokens, deltas, htok, -, rfl⟩ := take_ok hok
      · exact Grows.refl owner _
      · exact fun a => ⟨le_rfl, le_transferToken huni htok a⟩) (fun _ _ => trivial) h₁
  have htob : Grows owner (sd₁.1, deltas).1 sd₂.1 :=
    grows_foldlM Prod.fst (fun order : ToBOrder => order.signer ≠ owner) (fun _ _ _ hsigner hok => by
      obtain ⟨pair, -, quantityIn, quantityOut, mid, -, -, hmid, hrest⟩ :=
        validateAndExecuteToBOrder_ok hok
      exact (grows_settleOrderIn hsigner hmid).trans (grows_settleOrderOut hangstrom hrest))
      hToB h₂
  have huser : Grows owner sd₂.1 sd₃.1 :=
    grows_foldlM Prod.fst (fun order : UserOrder => ¬ order.Debits owner) (fun _ _ _ horder hok => by
      simp only [UserOrder.Debits, not_or, not_exists, not_and] at horder
      obtain ⟨pair, -, mid, s, hout, hhook, hin⟩ := validateAndExecuteUserOrder_ok hok
      have hcalls : Grows owner mid.1 s := grows_foldlM id (fun call : ExternalCall => ¬ call.Debits owner)
        (fun _ _ _ hcall hstep => grows_callExternal hangstrom hcall hstep) horder.2 hhook
      exact ((grows_settleOrderOut hangstrom hout).trans hcalls).trans
        (grows_settleOrderIn horder.1 hin)) hUser h₃
  have hsave : Grows owner sd₃.1 sd₅.1 :=
    grows_foldlM Prod.fst (fun _ => True) (fun _ _ _ _ hok => by
      obtain ⟨-, deltas, -, ⟨-, rfl⟩ | ⟨tokens, htok, rfl⟩⟩ := saveAndSettleAsset_ok hok
      · exact Grows.refl owner _
      · exact fun a => ⟨le_rfl, le_transferToken hangstrom htok a⟩) (fun _ _ => trivial) h₅
  exact htake.trans (htob.trans (huser.trans hsave))

end Funds

/-- Over every run of transactions that all go through, an owner other than the contract and the
pool manager never ends with less of an internal balance or of a token than it started with,
unless it made a deposit or a withdrawal of the run itself, or signed one of its orders. -/
theorem funds_run {angstrom uniV4 owner : Address} (hangstrom : angstrom ≠ owner)
    (huni : uniV4 ≠ owner) {s s' : State} {calls : List Call}
    (hcalls : ∀ call ∈ calls, ¬ call.Debits owner) (h : run angstrom uniV4 s calls = .ok s')
    (asset : Address) :
    s.balances asset owner ≤ s'.balances asset owner ∧
      s.tokens asset owner ≤ s'.tokens asset owner := by
  have hstep : ∀ x call x', ¬ call.Debits owner → step angstrom uniV4 x call = .ok x' →
      Grows owner x x' := by
    intro x call x' hcall hx
    cases call with
    | external call => exact grows_callExternal hangstrom hcall hx
    | execute bundle => exact grows_unlockCallback hangstrom huni hcall hx
  exact grows_foldlM id _ hstep hcalls h asset

theorem funds_run_sampleCalls : ∃ s', run 1 2 sampleState sampleCalls = .ok s' ∧
    sampleState.balances 11 6 ≤ s'.balances 11 6 ∧ sampleState.tokens 11 6 ≤ s'.tokens 11 6 := by
  obtain ⟨s', hrun⟩ := run_sampleCalls
  exact ⟨s', hrun, funds_run (by decide) (by decide) (by decide) hrun 11⟩

end Settlement

end Angstrom.Contract
