import Angstrom.Types.Ray

/-!
# The validator's user accounts

`crates/validation/src/order/state/account/{user.rs, mod.rs}`. For each user the validator keeps
what its pending orders will take from the user's funds (`PendingUserAction`), the top-of-block
ones per token apart from the book ones, and the user's balances read once per block
(`BaselineState`). `UserAccountProcessor::verify_order` checks a new order against the baseline
less what the pending actions of higher priority spend (`LiveState`), inserts the order's action,
and reports the pending orders that the insertion pushes past the baseline (`invalidates`).

Every map of `UserAccounts` is keyed by the user first and no operation reads another user's
entries, so the state here is one user's slice. `load_state_for` writes the three maps of
`BaselineState` together, and here they are one map of `Baseline`s. `StateFetchUtils` is what the
chain says about the user. A panic of the source is `none`: a zero limit price reaching
`Ray::inverse_quantity` in `fetch_amount_in`.
-/

namespace Angstrom.Validation

/-- `RespendAvoidanceMethod`. -/
inductive RespendAvoidanceMethod where
  | nonce (n : Nat)
  | block (n : Nat)
  deriving DecidableEq, Repr

def RespendAvoidanceMethod.getOrdForPendingOrders : RespendAvoidanceMethod → Nat
  | .nonce n => n
  | .block _ => 0

/-- `OrderValidationPriority`. -/
structure OrderValidationPriority where
  orderHash : Nat
  isTob : Bool
  isPartial : Bool
  respend : RespendAvoidanceMethod
  tobBidAmount : Nat
  deriving DecidableEq, Repr

/-- `OrderValidationPriority::is_higher_priority`: top-of-block orders first, then the larger
bid, then partial orders, then the lower nonce, then the lower hash. -/
def OrderValidationPriority.isHigherPriority (self other : OrderValidationPriority) : Ordering :=
  (compare self.isTob other.isTob).then <|
    (compare self.tobBidAmount other.tobBidAmount).then <|
      (compare self.isPartial other.isPartial).then <|
        (compare other.respend.getOrdForPendingOrders self.respend.getOrdForPendingOrders).then
          (compare other.orderHash self.orderHash)

/-- The fields of a `RawPoolOrder` that the account processor reads. -/
structure PoolOrder where
  orderHash : Nat
  isTob : Bool
  isBid : Bool
  isPartial : Bool
  exactIn : Bool
  useInternal : Bool
  hasHook : Bool
  respend : RespendAvoidanceMethod
  amount : Nat
  maxGasToken0 : Nat
  limitPrice : Ray
  deriving DecidableEq

def PoolOrder.validationPriority (o : PoolOrder) (bid : Option Nat) : OrderValidationPriority :=
  ⟨o.orderHash, o.isTob, o.isPartial, o.respend, bid.getD 0⟩

/-- `UserOrderPoolInfo`: the order's input token and its pool. -/
structure UserOrderPoolInfo (Token Pool : Type) where
  token : Token
  poolId : Pool
  deriving DecidableEq

/-- `UserAccountVerificationError`. -/
inductive UserAccountVerificationError (Token : Type) where
  | insufficientBalance (orderHash : Nat) (tokenIn : Token) (amount : Nat)
  | insufficientApproval (orderHash : Nat) (tokenIn : Token) (amount : Nat)
  | insufficientBoth (orderHash : Nat) (tokenIn : Token) (amountBalance amountApproval : Nat)
  | duplicateNonce (orderHash : Nat)
  | badBlock (nextBlock requestedBlock : Nat)
  | nonEmptyHook
  | couldNotFetch (err : String)
  deriving DecidableEq

/-- `PendingUserAction`; of its `pool_info` only the pool is read. -/
structure PendingUserAction (Token Pool : Type) where
  orderPriority : OrderValidationPriority
  tokenAddress : Token
  tokenDelta : Nat
  tokenApproval : Nat
  angstromDelta : Nat
  poolId : Pool
  deriving DecidableEq

/-- `LiveState`. -/
structure LiveState (Token : Type) where
  token : Token
  approval : Nat
  balance : Nat
  angstromBalance : Nat
  deriving DecidableEq

/-- One token's entry of the three maps of `BaselineState`. -/
structure Baseline where
  approval : Nat
  balance : Nat
  angstromBalance : Nat
  deriving DecidableEq

/-- One user's part of `UserAccounts`. -/
structure UserAccounts (Token Pool : Type) where
  pendingBookActions : List (PendingUserAction Token Pool)
  pendingTobActions : Token → List (PendingUserAction Token Pool)
  lastKnownState : Token → Option Baseline

/-- What `StateFetchUtils` reads from the chain about the user. -/
structure StateFetchUtils (Token : Type) where
  isValidNonce : Nat → Bool
  fetchApprovalBalanceForToken : Token → Option Nat
  fetchBalanceForToken : Token → Nat
  fetchTokenBalanceInAngstrom : Token → Nat

/-- The order's fields of `OrderWithStorageData` that `into_order_storage_with_data` fills from
the verification. -/
structure VerifiedOrder (Token Pool : Type) where
  order : PoolOrder
  poolId : Pool
  isCurrentlyValid : Option (UserAccountVerificationError Token)
  isValid : Bool
  validBlock : Nat
  invalidates : List Nat
  tobReward : Nat
  deriving DecidableEq

variable {Token Pool : Type}

/-! ## The live state -/

/-- `LiveState::fetch_amount_in`: what the order takes from the user in its input token, its
gas included. -/
def fetchAmountIn (o : PoolOrder) : Option Nat :=
  if o.isTob && !o.isBid then some (o.amount + o.maxGasToken0)
  else
    match o.isBid, o.exactIn with
    | true, false => o.limitPrice.inverseQuantity (o.amount + o.maxGasToken0) true
    | false, false => (· + o.maxGasToken0) <$> o.limitPrice.inverseQuantity o.amount true
    | _, _ => some o.amount

/-- The checks of `LiveState::can_support_order` for an order that takes `amountIn`: the
Angstrom balance for an internal order, approval and balance otherwise. -/
def LiveState.canSupport (self : LiveState Token) (order : PoolOrder)
    (poolInfo : UserOrderPoolInfo Token Pool) (bidInTokenIn : Option Nat) (amountIn : Nat) :
    Except (UserAccountVerificationError Token) (PendingUserAction Token Pool) :=
  let hash := order.orderHash
  if order.useInternal then
    if self.angstromBalance < amountIn then
      .error (.insufficientBalance hash self.token (amountIn - self.angstromBalance))
    else
      .ok { orderPriority := order.validationPriority bidInTokenIn, tokenAddress := poolInfo.token,
            tokenDelta := 0, tokenApproval := amountIn, angstromDelta := amountIn,
            poolId := poolInfo.poolId }
  else
    match decide (self.approval < amountIn), decide (self.balance < amountIn) with
    | true, true =>
      .error (.insufficientBoth hash self.token (amountIn - self.balance) (amountIn - self.approval))
    | true, false => .error (.insufficientApproval hash self.token (amountIn - self.approval))
    | false, true => .error (.insufficientBalance hash self.token (amountIn - self.balance))
    | false, false =>
      .ok { orderPriority := order.validationPriority bidInTokenIn, tokenAddress := poolInfo.token,
            tokenDelta := amountIn, tokenApproval := amountIn, angstromDelta := 0,
            poolId := poolInfo.poolId }

def LiveState.canSupportOrder (self : LiveState Token) (order : PoolOrder)
    (poolInfo : UserOrderPoolInfo Token Pool) (bidInTokenIn : Option Nat) :
    Option (Except (UserAccountVerificationError Token) (PendingUserAction Token Pool)) :=
  self.canSupport order poolInfo bidInTokenIn <$> fetchAmountIn order

/-! ## Pending actions -/

/-- The order `sort_unstable_by(|f, s| s.is_higher_priority(f))` leaves the actions in: `f` may
stand before `s` unless `s` has the higher priority, so the highest priority comes first. -/
def PendingUserAction.precedes (f s : PendingUserAction Token Pool) : Prop :=
  s.orderPriority.isHigherPriority f.orderPriority ≠ .gt

instance : DecidableRel (@PendingUserAction.precedes Token Pool) :=
  fun _ _ => inferInstanceAs (Decidable (_ ≠ _))

def sortByPriority (actions : List (PendingUserAction Token Pool)) :
    List (PendingUserAction Token Pool) :=
  actions.insertionSort PendingUserAction.precedes

/-- The filter of `iter_of_tob_and_book_unique_tob`: a top-of-block action passes only when no
top-of-block action of its pool passed before it (`seen_pools`). -/
def uniqueTob [DecidableEq Pool] :
    List Pool → List (PendingUserAction Token Pool) → List (PendingUserAction Token Pool)
  | _, [] => []
  | seenPools, a :: as =>
    if !a.orderPriority.isTob then a :: uniqueTob seenPools as
    else if a.poolId ∈ seenPools then uniqueTob seenPools as
    else a :: uniqueTob (a.poolId :: seenPools) as

/-- `overflowing_sub` on the `U256` amounts: the difference and whether it wrapped. The wrapped
difference is never read: `has_overflowed` stays set and marks every later action anyway. -/
def overflowingSub (a b : Nat) : Nat × Bool := (a - b, decide (a < b))

/-- The loop of `fetch_all_invalidated_orders` from what is left of the baseline approval,
balance and Angstrom balance, and `has_overflowed`. -/
def invalidatedFrom :
    Nat → Nat → Nat → Bool → List (PendingUserAction Token Pool) → List Nat
  | _, _, _, _, [] => []
  | approval, balance, angstromBalance, hasOverflowed, a :: as =>
    let approval' := overflowingSub approval a.tokenApproval
    let balance' := overflowingSub balance a.tokenDelta
    let angstromBalance' := overflowingSub angstromBalance a.angstromDelta
    let hasOverflowed := hasOverflowed || approval'.2 || balance'.2 || angstromBalance'.2
    (if hasOverflowed then [a.orderPriority.orderHash] else []) ++
      invalidatedFrom approval'.1 balance'.1 angstromBalance'.1 hasOverflowed as

/-! ## What `fetch_all_invalidated_orders` lists

The actions are charged in priority order against the baseline; the first one that takes more
than is left sets `has_overflowed`, and from then on every action is listed, itself included. So
an action is listed exactly when the actions up to it, itself included, do not fit the baseline
together (`mem_invalidatedFrom_iff`). -/

section Invalidated

/-- The actions fit the approval `a`, the balance `b` and the Angstrom balance `c` together. -/
def Fits (a b c : Nat) (actions : List (PendingUserAction Token Pool)) : Prop :=
  (actions.map (·.tokenApproval)).sum ≤ a ∧ (actions.map (·.tokenDelta)).sum ≤ b ∧
    (actions.map (·.angstromDelta)).sum ≤ c

@[simp] theorem fits_nil (a b c : Nat) : Fits a b c ([] : List (PendingUserAction Token Pool)) := by
  simp [Fits]

theorem fits_cons {a b c : Nat} {x : PendingUserAction Token Pool} {l : List _} :
    Fits a b c (x :: l) ↔ (x.tokenApproval ≤ a ∧ x.tokenDelta ≤ b ∧ x.angstromDelta ≤ c) ∧
      Fits (a - x.tokenApproval) (b - x.tokenDelta) (c - x.angstromDelta) l := by
  simp only [Fits, List.map_cons, List.sum_cons]
  omega

@[simp] theorem invalidatedFrom_overflowed (a b c : Nat) (l : List (PendingUserAction Token Pool)) :
    invalidatedFrom a b c true l = l.map (·.orderPriority.orderHash) := by
  induction l generalizing a b c with
  | nil => rfl
  | cons x l ih => simp [invalidatedFrom, ih]

theorem invalidatedFrom_cons_of_le {a b c : Nat} {x : PendingUserAction Token Pool}
    (h : x.tokenApproval ≤ a ∧ x.tokenDelta ≤ b ∧ x.angstromDelta ≤ c) (l : List _) :
    invalidatedFrom a b c false (x :: l) =
      invalidatedFrom (a - x.tokenApproval) (b - x.tokenDelta) (c - x.angstromDelta) false l := by
  obtain ⟨ha, hb, hc⟩ := h
  have hno : (decide (a < x.tokenApproval) || decide (b < x.tokenDelta) ||
      decide (c < x.angstromDelta)) = false := by simp; omega
  simp [invalidatedFrom, overflowingSub, hno]

theorem invalidatedFrom_cons_of_not_le {a b c : Nat} {x : PendingUserAction Token Pool}
    (h : ¬(x.tokenApproval ≤ a ∧ x.tokenDelta ≤ b ∧ x.angstromDelta ≤ c)) (l : List _) :
    invalidatedFrom a b c false (x :: l) = (x :: l).map (·.orderPriority.orderHash) := by
  have hyes : (decide (a < x.tokenApproval) || decide (b < x.tokenDelta) ||
      decide (c < x.angstromDelta)) = true := by simp; omega
  simp [invalidatedFrom, overflowingSub, hyes]

theorem mem_invalidatedFrom_iff (a b c : Nat) (l : List (PendingUserAction Token Pool)) (h : Nat) :
    h ∈ invalidatedFrom a b c false l ↔
      ∃ i, ∃ hi : i < l.length, (l.get ⟨i, hi⟩).orderPriority.orderHash = h ∧
        ¬Fits a b c (l.take (i + 1)) := by
  induction l generalizing a b c with
  | nil => simp [invalidatedFrom]
  | cons x l ih =>
    by_cases hx : x.tokenApproval ≤ a ∧ x.tokenDelta ≤ b ∧ x.angstromDelta ≤ c
    · -- `x` fits: it is not listed, and every later prefix fits iff its part after `x` fits
      rw [invalidatedFrom_cons_of_le hx, ih]
      constructor
      · rintro ⟨i, hi, hh, hfit⟩
        exact ⟨i + 1, by simpa using hi, by simpa using hh, by
          rwa [List.take_succ_cons, fits_cons, and_iff_right hx]⟩
      · rintro ⟨i, hi, hh, hfit⟩
        cases i with
        | zero => exact absurd (fits_cons.2 ⟨hx, fits_nil _ _ _⟩) (by simpa using hfit)
        | succ i =>
          exact ⟨i, by simpa using hi, by simpa using hh, by
            rwa [List.take_succ_cons, fits_cons, and_iff_right hx] at hfit⟩
    · -- `x` overflows: every prefix holds it and none fits
      rw [invalidatedFrom_cons_of_not_le hx]
      constructor
      · intro hmem
        obtain ⟨y, hy, rfl⟩ := List.mem_map.1 hmem
        obtain ⟨⟨i, hi⟩, rfl⟩ := List.get_of_mem hy
        exact ⟨i, hi, rfl, by
          rw [List.take_succ_cons, fits_cons]
          exact fun hfit => hx hfit.1⟩
      · rintro ⟨i, hi, rfl, -⟩
        exact List.mem_map_of_mem (List.get_mem _ _)

end Invalidated

namespace UserAccounts

variable [DecidableEq Token] [DecidableEq Pool]

def new : UserAccounts Token Pool := ⟨[], fun _ => [], fun _ => none⟩

/-- `iter_of_tob_and_book`: the top-of-block actions in `token`, then the book actions in it. -/
def iterOfTobAndBook (self : UserAccounts Token Pool) (token : Token) :
    List (PendingUserAction Token Pool) :=
  self.pendingTobActions token ++ self.pendingBookActions.filter (·.tokenAddress = token)

def iterOfTobAndBookUniqueTob (self : UserAccounts Token Pool) (token : Token) :
    List (PendingUserAction Token Pool) :=
  uniqueTob [] (self.iterOfTobAndBook token)

/-- `fetch_all_invalidated_orders`: the pending actions, in priority order, from the first one
whose cumulative spend exceeds the baseline on. -/
def fetchAllInvalidatedOrders (self : UserAccounts Token Pool) (token : Token) : List Nat :=
  match self.lastKnownState token with
  | none => []
  | some baseline =>
    invalidatedFrom baseline.approval baseline.balance baseline.angstromBalance false
      (self.iterOfTobAndBookUniqueTob token)

/-- The pending actions `try_fetch_live_pending_state` charges to an order of priority
`orderPriority` in `poolId`: those of strictly higher priority, without the top-of-block actions
of the same pool when the order is itself top-of-block. -/
def pendingAhead (self : UserAccounts Token Pool) (token : Token) (poolId : Pool)
    (orderPriority : OrderValidationPriority) : List (PendingUserAction Token Pool) :=
  ((self.iterOfTobAndBookUniqueTob token).filter
      (fun action => !(action.orderPriority.isTob && orderPriority.isTob &&
        decide (action.poolId = poolId)))).takeWhile
    (fun state => state.orderPriority.isHigherPriority orderPriority == .gt)

/-- `try_fetch_live_pending_state`: the baseline less what the actions ahead spend, saturating at
zero; `none` before the baseline of `token` is loaded. -/
def tryFetchLivePendingState (self : UserAccounts Token Pool) (token : Token) (poolId : Pool)
    (orderPriority : OrderValidationPriority) : Option (LiveState Token) := do
  let baseline ← self.lastKnownState token
  let ahead := self.pendingAhead token poolId orderPriority
  pure { token := token,
         approval := baseline.approval - (ahead.map (·.tokenApproval)).sum,
         balance := baseline.balance - (ahead.map (·.tokenDelta)).sum,
         angstromBalance := baseline.angstromBalance - (ahead.map (·.angstromDelta)).sum }

/-- `load_state_for`: a fresh read of the user's approval, balance and Angstrom balance. -/
def loadStateFor (self : UserAccounts Token Pool) (token : Token) (utils : StateFetchUtils Token) :
    Except String (UserAccounts Token Pool) :=
  match utils.fetchApprovalBalanceForToken token with
  | none => .error "could not properly find approvals"
  | some approvals =>
    .ok { self with
      lastKnownState := Function.update self.lastKnownState token
        (some ⟨approvals, utils.fetchBalanceForToken token, utils.fetchTokenBalanceInAngstrom token⟩) }

/-- `get_live_state_for_order`: the live state, loading the baseline first if it is missing. -/
def getLiveStateForOrder (self : UserAccounts Token Pool) (token : Token)
    (orderPriority : OrderValidationPriority) (poolId : Pool) (utils : StateFetchUtils Token) :
    Except String (LiveState Token × UserAccounts Token Pool) :=
  match self.tryFetchLivePendingState token poolId orderPriority with
  | some live => .ok (live, self)
  | none =>
    match self.loadStateFor token utils with
    | .error e => .error e
    | .ok loaded =>
      match loaded.tryFetchLivePendingState token poolId orderPriority with
      | some live => .ok (live, loaded)
      | none => .error
          "after loading state for a address, the state wasn't found. this should be impossible"

/-- `insert_pending_user_action`: the action joins the top-of-block or the book actions, sorted by
priority, and the result lists what is now invalidated in its token. -/
def insertPendingUserAction (self : UserAccounts Token Pool) (isTob : Bool)
    (action : PendingUserAction Token Pool) : UserAccounts Token Pool × List Nat :=
  let token := action.tokenAddress
  let inserted : UserAccounts Token Pool :=
    if isTob then
      let tobActions := sortByPriority (self.pendingTobActions token ++ [action])
      { self with pendingTobActions := Function.update self.pendingTobActions token tobActions }
    else { self with pendingBookActions := sortByPriority (self.pendingBookActions ++ [action]) }
  (inserted, inserted.fetchAllInvalidatedOrders token)

/-- `cancel_order`: the book actions of the order go if there are any, its top-of-block actions
otherwise. The flag it returns is dropped by `UserAccountProcessor::cancel_order` and by
`verify_order`, its callers here. -/
def cancelOrder (self : UserAccounts Token Pool) (orderHash : Nat) : UserAccounts Token Pool :=
  if self.pendingBookActions.any (·.orderPriority.orderHash = orderHash) then
    { self with pendingBookActions :=
        self.pendingBookActions.filter (·.orderPriority.orderHash ≠ orderHash) }
  else
    { self with pendingTobActions := fun token =>
        (self.pendingTobActions token).filter (·.orderPriority.orderHash ≠ orderHash) }

/-- `respend_conflicts`: the book actions with the same nonce; none for a block-bound order. -/
def respendConflicts (self : UserAccounts Token Pool) (avoidance : RespendAvoidanceMethod) :
    List (PendingUserAction Token Pool) :=
  match avoidance with
  | .nonce n => self.pendingBookActions.filter (·.orderPriority.respend = .nonce n)
  | .block _ => []

end UserAccounts

open UserAccounts

variable [DecidableEq Token] [DecidableEq Pool]

/-- The verdict of `verify_order` once the live state is known: an order the live state supports
is inserted, a book order it does not support is kept as not currently valid, and a
top-of-block order it does not support is rejected. -/
def verdict (accounts : UserAccounts Token Pool) (order : PoolOrder)
    (poolInfo : UserOrderPoolInfo Token Pool) (block tobRewardT0 : Nat)
    (conflictingHashes : List Nat) :
    Except (UserAccountVerificationError Token) (PendingUserAction Token Pool) →
      Except (UserAccountVerificationError Token) (VerifiedOrder Token Pool) ×
        UserAccounts Token Pool
  | .ok action =>
    let (inserted, invalidOrders) := accounts.insertPendingUserAction order.isTob action
    (.ok ⟨order, poolInfo.poolId, none, true, block, invalidOrders ++ conflictingHashes,
      tobRewardT0⟩, inserted)
  | .error e =>
    if order.isTob then (.error e, accounts)
    else (.ok ⟨order, poolInfo.poolId, some e, true, block, conflictingHashes, tobRewardT0⟩,
      accounts)

/-- `UserAccountProcessor::verify_order` for an order of the user, with `tobRewards` the result of
the `tob_rewards` callback. It returns the verdict and the accounts after the call. -/
def verifyOrder (utils : StateFetchUtils Token) (accounts : UserAccounts Token Pool)
    (order : PoolOrder) (poolInfo : UserOrderPoolInfo Token Pool) (block : Nat)
    (isRevalidating : Bool)
    (tobRewards : Except (UserAccountVerificationError Token) (Nat × Nat)) :
    Option (Except (UserAccountVerificationError Token) (VerifiedOrder Token Pool) ×
      UserAccounts Token Pool) :=
  let orderHash := order.orderHash
  -- a revalidated order first takes back its own earlier action
  let accounts := if isRevalidating then accounts.cancelOrder orderHash else accounts
  let respendChecked : Except (UserAccountVerificationError Token) Unit :=
    match order.respend with
    | .nonce nonce => if utils.isValidNonce nonce then .ok () else .error (.duplicateNonce orderHash)
    | .block orderBlock =>
      if block + 1 ≠ orderBlock then .error (.badBlock (block + 1) orderBlock) else .ok ()
  match respendChecked with
  | .error e => some (.error e, accounts)
  | .ok () =>
    if order.hasHook then some (.error .nonEmptyHook, accounts)
    else
      let conflictingOrders := accounts.respendConflicts order.respend
      if conflictingOrders.any (·.orderPriority.orderHash ≤ orderHash) then
        some (.error (.duplicateNonce orderHash), accounts)
      else
        let accounts := conflictingOrders.foldl
          (fun acc o => acc.cancelOrder o.orderPriority.orderHash) accounts
        let conflictingHashes := conflictingOrders.map (·.orderPriority.orderHash)
        match tobRewards with
        | .error e => some (.error e, accounts)
        | .ok (tobRewardT0, tobRewardTokenIn) =>
          match accounts.getLiveStateForOrder poolInfo.token
              (order.validationPriority (some tobRewardTokenIn)) poolInfo.poolId utils with
          | .error err => some (.error (.couldNotFetch err), accounts)
          | .ok (liveState, accounts) =>
            verdict accounts order poolInfo block tobRewardT0 conflictingHashes <$>
              liveState.canSupportOrder order poolInfo (some tobRewardTokenIn)

def unitPrice : Ray := ⟨1, by decide⟩

/-- A user with `100` of token `5` in Angstrom and neither balance nor approval outside. -/
def depositor : StateFetchUtils Nat := ⟨fun _ => true, fun _ => some 0, fun _ => 0, fun _ => 100⟩

/-- A book order selling `50` of token `5` exactly in, paid from the Angstrom balance. -/
def internalOrder : PoolOrder :=
  ⟨1, false, false, false, true, true, false, .nonce 1, 50, 0, unitPrice⟩

/-- The Angstrom balance covers the internal order, so it is accepted as currently valid; but its
action also takes its amount from the approval, which is zero, and the insertion lists the order
itself among the orders it invalidates. -/
theorem internal_order_invalidates_itself :
    (verifyOrder depositor (UserAccounts.new : UserAccounts Nat Nat) internalOrder ⟨5, 7⟩ 420
        false (.ok (0, 0))).map
      (fun r => r.1.toOption.map fun v => (v.isCurrentlyValid.isNone, v.invalidates)) =
      some (some (true, [1])) := by
  decide

/-! ## Runs of calls and the orders they leave standing -/

/-- A call the processor serves for the user within one block. -/
inductive Call (Token Pool : Type) where
  | verifyOrder (order : PoolOrder) (poolInfo : UserOrderPoolInfo Token Pool)
      (isRevalidating : Bool) (tobRewards : Except (UserAccountVerificationError Token) (Nat × Nat))
  | cancelOrder (orderHash : Nat)

/-- The reply to a call: the verdict of a verification, nothing for a cancellation. -/
abbrev Reply (Token Pool : Type) :=
  Option (Except (UserAccountVerificationError Token) (VerifiedOrder Token Pool))

def step (utils : StateFetchUtils Token) (block : Nat) (accounts : UserAccounts Token Pool) :
    Call Token Pool → Option (Reply Token Pool × UserAccounts Token Pool)
  | .verifyOrder order poolInfo isRevalidating tobRewards =>
    (fun (reply, accounts) => (some reply, accounts)) <$>
      verifyOrder utils accounts order poolInfo block isRevalidating tobRewards
  | .cancelOrder orderHash => some (none, accounts.cancelOrder orderHash)

/-- A run of calls: each call with its reply, and the accounts at the end; `none` if a call
panics. -/
def run (utils : StateFetchUtils Token) (block : Nat) :
    UserAccounts Token Pool → List (Call Token Pool) →
      Option (List (Call Token Pool × Reply Token Pool) × UserAccounts Token Pool)
  | accounts, [] => some ([], accounts)
  | accounts, call :: calls => do
    let (reply, accounts) ← step utils block accounts call
    let (log, accounts) ← run utils block accounts calls
    pure ((call, reply) :: log, accounts)

/-- Whether a later entry of a log takes the order `orderHash` back: a later verdict lists it in
its `invalidates`, or a later call cancels it or verifies it again. -/
def takenBack (orderHash : Nat) (later : List (Call Token Pool × Reply Token Pool)) : Bool :=
  later.any fun
    | (.cancelOrder h, _) => h = orderHash
    | (.verifyOrder order .., reply) =>
      order.orderHash = orderHash ||
        match reply with
        | some (.ok verified) => verified.invalidates.contains orderHash
        | _ => false

/-- An order standing at the end of a run, with its pool and the priority it was verified at. -/
structure Standing (Pool : Type) where
  order : PoolOrder
  poolId : Pool
  priority : OrderValidationPriority

/-- The orders a log leaves standing: verified as currently valid and not taken back later. -/
def standing : List (Call Token Pool × Reply Token Pool) → List (Standing Pool)
  | [] => []
  | (.verifyOrder order poolInfo _ (.ok (_, bid)), some (.ok verified)) :: later =>
    if verified.isCurrentlyValid.isNone && !takenBack order.orderHash later then
      ⟨order, poolInfo.poolId, order.validationPriority (some bid)⟩ :: standing later
    else standing later
  | _ :: later => standing later

/-- The standing orders that count against the user's funds: the book orders, and in each pool
only the standing top-of-block order of highest priority. -/
def counted (orders : List (Standing Pool)) : List (Standing Pool) :=
  orders.filter fun a =>
    !a.order.isTob || orders.all fun b =>
      !(b.order.isTob && decide (b.poolId = a.poolId) &&
        b.priority.isHigherPriority a.priority == .gt)

/-- What the counted standing orders of a log take from the user: from the Angstrom balance when
`useInternal`, from the token balance (under the approval) otherwise. -/
def committed (useInternal : Bool) (log : List (Call Token Pool × Reply Token Pool)) : Nat :=
  (((counted (standing log)).filter (·.order.useInternal = useInternal)).map
    fun a => (fetchAmountIn a.order).getD 0).sum

/-- A user with `100` of token `5`, all of it approved, and nothing in Angstrom. -/
def fundedUser : StateFetchUtils Nat := ⟨fun _ => true, fun _ => some 100, fun _ => 100, fun _ => 0⟩

/-- An order selling `amount` of token `5` exactly in, from the token balance. -/
def sampleOrder (orderHash : Nat) (isTob : Bool) (respend : RespendAvoidanceMethod)
    (amount : Nat) : PoolOrder :=
  ⟨orderHash, isTob, false, false, true, false, false, respend, amount, 0, unitPrice⟩

/-- Three top-of-block orders for block `421`: bids `1` and `2` in pool `7`, then bid `3` in
pool `8`. -/
def tobShadowCalls : List (Call Nat Nat) :=
  [.verifyOrder (sampleOrder 1 true (.block 421) 100) ⟨5, 7⟩ false (.ok (0, 1)),
   .verifyOrder (sampleOrder 2 true (.block 421) 60) ⟨5, 7⟩ false (.ok (0, 2)),
   .verifyOrder (sampleOrder 3 true (.block 421) 50) ⟨5, 8⟩ false (.ok (0, 3))]

/-- The second order shadows the first, which no later accounting sees; the third pushes the
second past the funds and lists it. The first and the third are left standing, each the only
standing top-of-block order of its pool, and they commit `150` of the user's `100`. -/
theorem tob_shadow_overcommits :
    fundedUser.fetchBalanceForToken 5 = 100 ∧ fundedUser.fetchApprovalBalanceForToken 5 = some 100 ∧
      (run fundedUser 420 UserAccounts.new tobShadowCalls).map (fun r => committed false r.1) =
        some 150 := by
  decide

/-- Each order submitted as a book order of pool `7`, with no revalidation and no reward. -/
def submit (orders : List PoolOrder) : List (Call Nat Nat) :=
  orders.map fun order => .verifyOrder order ⟨5, 7⟩ false (.ok (0, 0))

/-- Three book orders of nonces `1`, `2` and `3`, so of decreasing priority, for `60`, `50`
and `40`. -/
def nonceOrders : List PoolOrder :=
  [sampleOrder 1 false (.nonce 1) 60, sampleOrder 2 false (.nonce 2) 50,
    sampleOrder 3 false (.nonce 3) 40]

def standingHashes (r : List (Call Nat Nat × Reply Nat Nat) × UserAccounts Nat Nat) : List Nat :=
  (standing r.1).map (·.order.orderHash)

/-- In priority order the second order does not fit beside the first and is never inserted, and
the third fits: the first and the third stand. Submitted second, third, first, the second and
third are accepted, and the first pushes both past the funds, since an overflow marks every
later action: only the first stands. -/
theorem standing_depends_on_arrival_order :
    [nonceOrders[1], nonceOrders[2], nonceOrders[0]].Perm nonceOrders ∧
      (run fundedUser 420 UserAccounts.new (submit nonceOrders)).map standingHashes =
        some [1, 3] ∧
      (run fundedUser 420 UserAccounts.new
          (submit [nonceOrders[1], nonceOrders[2], nonceOrders[0]])).map standingHashes =
        some [1] := by
  decide

end Angstrom.Validation
