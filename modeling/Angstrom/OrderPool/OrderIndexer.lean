import Angstrom.OrderPool.OrderStorage
import Angstrom.Lib.Transition

/-!
# The order indexer

`crates/order-pool/src/order_indexer.rs` and `crates/order-pool/src/order_tracker.rs`. The indexer
keeps an `OrderTracker`, which maps the hash of every order it accepted to the order's id, beside
the `OrderStorage`, and reacts to events: a new order, the validator's result for an order, a
request to cancel, the end of the processing of a new block, a finalized block and a reorg. A
panic ends a run (`system`). The validator is kept as the hashes of the orders sent to it whose
results have not come back (`validating`); the peers of orders, the subscribers and the metrics
are left out.

The tracker and the storage are meant to hold the same orders, and the status of a filled order
is meant to be `Filled`. Neither holds. `cancel_order` drops the hash from the tracker before it
asks the storage, which does not cancel a parked limit order of a pool that has a pending pool:
the order stays stored, with no hash in the tracker. And nothing writes the storage's
`filled_orders`, so along every run no status is `Filled` (`fetchStatusOfOrder_ne_filled_of_reachable`):
a filled order waiting for finalization has no status at all.
-/

namespace Angstrom.OrderPool

/-- `InnerCancelOrderRequest`. -/
structure InnerCancelOrderRequest where
  fromAddress : Nat
  deadline : Nat
  deriving DecidableEq, Repr

/-- `OrderTracker`, without the peers of each order. -/
structure OrderTracker where
  addressToOrders : AList fun _ : Nat => List OrderId
  orderHashToOrderId : AList fun _ : B256 => OrderId
  seenInvalidOrders : List B256
  cancelledOrders : AList fun _ : B256 => InnerCancelOrderRequest
  isValidating : List B256

namespace OrderTracker

def new : OrderTracker := ⟨∅, ∅, [], ∅, []⟩

def clearInvalid (t : OrderTracker) : OrderTracker := { t with seenInvalidOrders := [] }

def isSeenInvalid (t : OrderTracker) (orderHash : B256) : Bool := orderHash ∈ t.seenInvalidOrders

def isCancelled (t : OrderTracker) (orderHash : B256) : Bool :=
  (t.cancelledOrders.lookup orderHash).isSome

def startValidating (t : OrderTracker) (order : B256) : OrderTracker :=
  { t with isValidating := t.isValidating.insert order }

def stopValidating (t : OrderTracker) (order : B256) : OrderTracker :=
  { t with isValidating := t.isValidating.erase order }

def isValidCancel (t : OrderTracker) (order : B256) (orderAddr : Nat) : Bool :=
  match t.cancelledOrders.lookup order with
  | some req => req.fromAddress == orderAddr
  | none => false

def isDuplicate (t : OrderTracker) (hash : B256) : Bool :=
  (t.orderHashToOrderId.lookup hash).isSome || hash ∈ t.seenInvalidOrders

def invalidVerification (t : OrderTracker) (hash : B256) : OrderTracker :=
  { t with seenInvalidOrders := t.seenInvalidOrders.insert hash }

def newValidOrder (t : OrderTracker) (hash : B256) (user : Nat) (id : OrderId) : OrderTracker :=
  { t with
    orderHashToOrderId := t.orderHashToOrderId.insert hash id
    addressToOrders := t.addressToOrders.insert user (((t.addressToOrders.lookup user).getD []).insert id) }

/-- `insert_cancel_with_deadline`: without a deadline the request lasts until the block ends. -/
def insertCancelWithDeadline (t : OrderTracker) (fromAddress : Nat) (orderHash : B256)
    (deadline : Option Nat) (now : Nat) : OrderTracker :=
  { t with
    cancelledOrders := t.cancelledOrders.insert orderHash ⟨fromAddress, deadline.getD (now - 12 - 1)⟩ }

def cancelWithNextBlockDeadline (t : OrderTracker) (fromAddress : Nat) (orderHash : B256)
    (now : Nat) : OrderTracker :=
  t.insertCancelWithDeadline fromAddress orderHash (some (now + 7000 * 12)) now

/-- `cancel_order`: the hash leaves the map before the storage is asked; the answer is the pool
and whether the order is a searcher's, when the storage cancelled it. -/
def cancelOrder (t : OrderTracker) (fromAddress : Nat) (hash : B256) (storage : OrderStorage)
    (now : Nat) : Option (Bool × PoolId) × OrderTracker × OrderStorage :=
  let r : Bool × PoolId × Bool × OrderStorage :=
    match t.orderHashToOrderId.lookup hash with
    | some v =>
      let c := storage.cancelOrder v
      (c.1, v.poolId, decide (v.location = .searcher), c.2)
    | none => (false, 0, false, storage)
  let t := { t with orderHashToOrderId := t.orderHashToOrderId.erase hash }
  (if r.1 then some (r.2.2.1, r.2.1) else none,
    t.cancelWithNextBlockDeadline fromAddress hash now, r.2.2.2)

/-- The loop body of `filled_orders`: a tracked hash leaves the map and its order the storage. -/
def fillStep (acc : List (OrderWithStorageData AllOrders) × OrderTracker × OrderStorage)
    (hash : B256) : List (OrderWithStorageData AllOrders) × OrderTracker × OrderStorage :=
  match acc.2.1.orderHashToOrderId.lookup hash with
  | none => acc
  | some orderId =>
    let t := { acc.2.1 with orderHashToOrderId := acc.2.1.orderHashToOrderId.erase hash }
    let r := match orderId.location with
      | .limit => acc.2.2.removeLimitOrder orderId
      | .searcher => acc.2.2.removeSearcherOrder orderId
    (acc.1 ++ r.1.toList, t, r.2)

def filledOrders (t : OrderTracker) (orders : List B256) (storage : OrderStorage) :
    List (OrderWithStorageData AllOrders) × OrderTracker × OrderStorage :=
  orders.foldl fillStep ([], t, storage)

/-- The filter of `remove_expired_orders`: a deadline passed, or a flash order of another block. -/
def expired (blockNumber expiryDeadline : Nat) (v : OrderId) : Bool :=
  (v.deadline.map fun i => decide (i ≤ expiryDeadline)).getD false ||
    (v.flashBlock.map fun b => b != blockNumber + 1).getD false

/-- The loop body of `remove_expired_orders`. The hash was collected from the map, so the
source's `unwrap` finds it. -/
def expireStep (acc : List (OrderWithStorageData AllOrders) × OrderTracker × OrderStorage)
    (hash : B256) : List (OrderWithStorageData AllOrders) × OrderTracker × OrderStorage :=
  match acc.2.1.orderHashToOrderId.lookup hash with
  | none => acc
  | some id =>
    let t := { acc.2.1 with
      orderHashToOrderId := acc.2.1.orderHashToOrderId.erase hash
      addressToOrders := acc.2.1.addressToOrders.mapValues fun _ ids => ids.erase id }
    let r := match id.location with
      | .searcher => acc.2.2.removeSearcherOrder id
      | .limit => acc.2.2.removeLimitOrder id
    (acc.1 ++ r.1.toList, t, r.2)

def removeExpiredOrders (t : OrderTracker) (blockNumber : Nat) (storage : OrderStorage) (now : Nat) :
    List (OrderWithStorageData AllOrders) × OrderTracker × OrderStorage :=
  let expiryDeadline := now + 12
  let t := { t with
    cancelledOrders := t.cancelledOrders.filterValues fun _ req => decide (expiryDeadline < req.deadline) }
  let hashes := (t.orderHashToOrderId.entries.filter fun e => expired blockNumber expiryDeadline e.2).map (·.1)
  hashes.foldl expireStep ([], t, storage)

/-- `pending_orders_for_address` with the closure of `cancel_order`: the user's parked orders
leave the storage. -/
def pendingOrdersForAddress (t : OrderTracker) (address : Nat) (storage : OrderStorage) :
    List (OrderWithStorageData AllOrders) × OrderStorage :=
  ((t.addressToOrders.lookup address).getD []).foldl
    (fun acc id =>
      let r := acc.2.removeParkedOrder id
      (acc.1 ++ r.1.toList, r.2)) ([], storage)

/-- `eoa_state_changes` with the closure of `eoa_state_change`: the orders of the changed
addresses leave the map of addresses and the storage, and go back to the validator. -/
def eoaStateChanges (t : OrderTracker) (eoas : List Nat) (storage : OrderStorage) :
    List AllOrders × OrderTracker × OrderStorage :=
  let r := eoas.foldl
    (fun acc eoa =>
      match acc.2.lookup eoa with
      | some ids => (acc.1 ++ ids, acc.2.erase eoa)
      | none => acc) ([], t.addressToOrders)
  let out := r.1.foldl
    (fun acc id =>
      let x := acc.2.removeOrderFromId id
      (acc.1 ++ (x.1.map (·.order)).toList, x.2)) ([], storage)
  (out.1, { t with addressToOrders := r.2 }, out.2)

end OrderTracker

/-- `OrderValidationResults`. -/
inductive OrderValidationResults
  | valid (order : OrderWithStorageData AllOrders)
  | invalid (hash : B256)
  | transitionedToBlock (gasUpdates : List UpdatedGas)

/-- `CancelOrderRequest`, with whether its signature is the user's (`is_valid`). -/
structure CancelOrderRequest where
  userAddress : Nat
  orderId : B256
  signatureValid : Bool

/-- What the indexer reacts to; `now` is the wall-clock time the source reads. -/
inductive IndexerEvent
  | newOrder (order : AllOrders)
  | validatedOrder (res : OrderValidationResults)
  | cancelOrder (request : CancelOrderRequest) (now : Nat)
  | finishNewBlockProcessing (blockNumber : Nat) (completedOrders : List B256)
      (addressChanges : List Nat) (now : Nat)
  | finalizedBlock (blockNumber : Nat)
  | reorg (orders : List B256)

/-- `OrderIndexer`, with the hashes of the orders sent to the validator and not answered yet. -/
structure OrderIndexer where
  orderStorage : OrderStorage
  orderTracker : OrderTracker
  blockNumber : Nat
  validating : List B256

namespace OrderIndexer

def new (ids : List PoolId) (blockNumber : Nat) : OrderIndexer :=
  ⟨OrderStorage.new ids, OrderTracker.new, blockNumber, []⟩

/-- `new_order`: a cancelled, duplicate or already validating order is not sent. -/
def newOrder (s : OrderIndexer) (order : AllOrders) : OrderIndexer :=
  let hash := order.orderHash
  if s.orderTracker.isValidCancel hash order.fromAddress then s
  else if s.orderTracker.isDuplicate hash then s
  else if hash ∈ s.orderTracker.isValidating then s
  else { s with orderTracker := s.orderTracker.startValidating hash, validating := s.validating ++ [hash] }

/-- The orders an accepted order invalidates, when tracked, leave the storage. -/
def removeInvalidated (t : OrderTracker) (storage : OrderStorage) (invalidates : List B256) :
    List (OrderWithStorageData AllOrders) × OrderStorage :=
  invalidates.foldl
    (fun acc h =>
      match t.orderHashToOrderId.lookup h with
      | none => acc
      | some id =>
        let r := acc.2.removeOrderFromId id
        (acc.1 ++ r.1.toList, r.2)) ([], storage)

def insertOrder (storage : OrderStorage) (res : OrderWithStorageData AllOrders) : OrderStorage :=
  match res.orderId.location with
  | .searcher =>
    match storage.addNewSearcherOrder res with
    | .ok s => s
    | .error _ => storage
  | .limit =>
    match storage.addNewLimitOrder res with
    | .ok s => s
    | .error _ => storage

def handleValidatedOrder (s : OrderIndexer) : OrderValidationResults → Option OrderIndexer
  | .valid valid =>
    let hash := valid.order.orderHash
    let s := { s with
      orderTracker := s.orderTracker.stopValidating hash
      validating := s.validating.erase hash }
    if valid.validBlock ≠ s.blockNumber then
      some { s with orderTracker := s.orderTracker.invalidVerification hash }
    else
      let t := s.orderTracker.newValidOrder hash valid.order.fromAddress valid.orderId
      let r := removeInvalidated t s.orderStorage valid.invalidates
      let t := r.1.foldl (fun t order => t.startValidating order.order.orderHash) t
      some { s with
        orderTracker := t
        orderStorage := insertOrder r.2 valid
        validating := s.validating ++ r.1.map (·.order.orderHash) }
  | .invalid hash =>
    some { s with
      orderTracker := (s.orderTracker.stopValidating hash).invalidVerification hash
      orderStorage := s.orderStorage.removeInvalidOrder hash
      validating := s.validating.erase hash }
  | .transitionedToBlock gasUpdates =>
    (s.orderStorage.applyNewGasAndReturnBlockedOrders gasUpdates).map fun r =>
      { s with orderStorage := r.2, validating := s.validating ++ r.1.map (·.orderHash) }

/-- `cancel_order`; when the storage cancelled the order, the user's parked orders go back to
the validator. -/
def cancelOrder (s : OrderIndexer) (request : CancelOrderRequest) (now : Nat) : Bool × OrderIndexer :=
  if !request.signatureValid then (false, s)
  else if s.orderTracker.isSeenInvalid request.orderId || s.orderTracker.isCancelled request.orderId then
    (true, s)
  else
    match s.orderTracker.cancelOrder request.userAddress request.orderId s.orderStorage now with
    | (some _, t, storage) =>
      let r := t.pendingOrdersForAddress request.userAddress storage
      (true, { s with
        orderTracker := t
        orderStorage := r.2
        validating := s.validating ++ r.1.map (·.order.orderHash) })
    | (none, t, storage) => (false, { s with orderTracker := t, orderStorage := storage })

/-- `filled_orders`: the tracked filled orders move to the finalization pool. -/
def filledOrders (s : OrderIndexer) (blockNumber : Nat) (orders : List B256) : Option OrderIndexer :=
  if orders.isEmpty then some s
  else
    let r := s.orderTracker.filledOrders orders s.orderStorage
    (r.2.2.addFilledOrders blockNumber r.1).map fun storage =>
      { s with orderTracker := r.2.1, orderStorage := storage }

def insertCancelOf (now : Nat) (t : OrderTracker) (order : OrderWithStorageData AllOrders) :
    OrderTracker :=
  t.insertCancelWithDeadline order.order.fromAddress order.order.orderHash order.order.deadline now

def purgeCancelled (s : OrderIndexer) (now : Nat) : OrderIndexer :=
  let r := s.orderStorage.purgeTobOrders
  let t := r.1.foldl (insertCancelOf now) s.orderTracker
  let r' := r.2.purgeUserOrders
  { s with orderTracker := r'.1.foldl (insertCancelOf now) t, orderStorage := r'.2 }

def eoaStateChange (s : OrderIndexer) (eoas : List Nat) : OrderIndexer :=
  let r := s.orderTracker.eoaStateChanges eoas s.orderStorage
  { s with
    orderTracker := r.2.1
    orderStorage := r.2.2
    validating := s.validating ++ r.1.map (·.orderHash) }

def finishNewBlockProcessing (s : OrderIndexer) (blockNumber : Nat) (completedOrders : List B256)
    (addressChanges : List Nat) (now : Nat) : Option OrderIndexer :=
  let s := { s with blockNumber := blockNumber, orderTracker := s.orderTracker.clearInvalid }
  (s.filledOrders blockNumber completedOrders).map fun s =>
    let s := s.purgeCancelled now
    let r := s.orderTracker.removeExpiredOrders blockNumber s.orderStorage now
    ({ s with orderTracker := r.2.1, orderStorage := r.2.2 } : OrderIndexer).eoaStateChange addressChanges

def finalizedBlock (s : OrderIndexer) (blockNumber : Nat) : OrderIndexer :=
  { s with orderStorage := s.orderStorage.finalizedBlock blockNumber }

/-- `reorg`: the orders taken back from the finalization pool go back to the validator. -/
def reorg (s : OrderIndexer) (orders : List B256) : OrderIndexer :=
  let r := s.orderStorage.reorg orders
  { s with orderStorage := r.2, validating := s.validating ++ r.1.map (·.order.orderHash) }

/-- One event; `none` is a panic. -/
def step (s : OrderIndexer) : IndexerEvent → Option OrderIndexer
  | .newOrder order => some (s.newOrder order)
  | .validatedOrder res => s.handleValidatedOrder res
  | .cancelOrder request now => some (s.cancelOrder request now).2
  | .finishNewBlockProcessing blockNumber completedOrders addressChanges now =>
    s.finishNewBlockProcessing blockNumber completedOrders addressChanges now
  | .finalizedBlock blockNumber => some (s.finalizedBlock blockNumber)
  | .reorg orders => some (s.reorg orders)

def system (ids : List PoolId) : Transition.System OrderIndexer IndexerEvent :=
  Transition.ofOption (fun s => ∃ blockNumber, s = new ids blockNumber) step

end OrderIndexer

/-! ## No step writes `filled_orders`

Every storage operation keeps the map (`OrderStorage.filledOrders_*`); the tracker's loops and
the indexer's events are folds and sequences of them. -/

namespace OrderTracker

variable (t : OrderTracker) (storage : OrderStorage)

theorem cancelOrder_filledOrders (fromAddress : Nat) (hash : B256) (now : Nat) :
    (t.cancelOrder fromAddress hash storage now).2.2.filledOrders = storage.filledOrders := by
  unfold cancelOrder
  split <;> simp

theorem storage_filledOrders_filledOrders (orders : List B256) :
    (t.filledOrders orders storage).2.2.filledOrders = storage.filledOrders := by
  refine Transition.foldl_keeps (fun acc : _ × _ × OrderStorage => acc.2.2.filledOrders) fillStep
    ?_ orders _
  intro acc hash
  unfold fillStep
  split
  · rfl
  · split <;> simp

theorem removeExpiredOrders_filledOrders (blockNumber now : Nat) :
    (t.removeExpiredOrders blockNumber storage now).2.2.filledOrders = storage.filledOrders := by
  refine Transition.foldl_keeps (fun acc : _ × _ × OrderStorage => acc.2.2.filledOrders) expireStep
    ?_ _ _
  intro acc hash
  unfold expireStep
  split
  · rfl
  · split <;> simp

theorem pendingOrdersForAddress_filledOrders (address : Nat) :
    (t.pendingOrdersForAddress address storage).2.filledOrders = storage.filledOrders :=
  Transition.foldl_keeps (fun acc : _ × OrderStorage => acc.2.filledOrders) _ (fun _ _ => by simp) _ _

theorem eoaStateChanges_filledOrders (eoas : List Nat) :
    (t.eoaStateChanges eoas storage).2.2.filledOrders = storage.filledOrders :=
  Transition.foldl_keeps (fun acc : _ × OrderStorage => acc.2.filledOrders) _ (fun _ _ => by simp) _ _

end OrderTracker

namespace OrderIndexer

theorem removeInvalidated_filledOrders (t : OrderTracker) (storage : OrderStorage)
    (invalidates : List B256) :
    (removeInvalidated t storage invalidates).2.filledOrders = storage.filledOrders := by
  refine Transition.foldl_keeps (fun acc : _ × OrderStorage => acc.2.filledOrders) _ ?_ _ _
  intro acc h
  dsimp only
  split
  · rfl
  · simp

theorem insertOrder_filledOrders (storage : OrderStorage) (res : OrderWithStorageData AllOrders) :
    (insertOrder storage res).filledOrders = storage.filledOrders := by
  unfold insertOrder
  split
  · split
    · next s' h => exact storage.filledOrders_addNewSearcherOrder h
    · rfl
  · split
    · next s' h => exact storage.filledOrders_addNewLimitOrder h
    · rfl

theorem handleValidatedOrder_filledOrders {s s' : OrderIndexer} {res : OrderValidationResults}
    (h : s.handleValidatedOrder res = some s') :
    s'.orderStorage.filledOrders = s.orderStorage.filledOrders := by
  cases res with
  | valid valid =>
    simp only [handleValidatedOrder] at h
    split_ifs at h
    · cases h
      rfl
    · cases h
      rw [insertOrder_filledOrders, removeInvalidated_filledOrders]
  | invalid hash =>
    simp only [handleValidatedOrder] at h
    cases h
    rfl
  | transitionedToBlock gasUpdates =>
    simp only [handleValidatedOrder] at h
    obtain ⟨r, hr, rfl⟩ := Option.map_eq_some_iff.1 h
    exact s.orderStorage.filledOrders_applyNewGas hr

theorem cancelOrder_filledOrders (s : OrderIndexer) (request : CancelOrderRequest) (now : Nat) :
    (s.cancelOrder request now).2.orderStorage.filledOrders = s.orderStorage.filledOrders := by
  unfold cancelOrder
  have hc := s.orderTracker.cancelOrder_filledOrders s.orderStorage request.userAddress
    request.orderId now
  split
  · rfl
  · split
    · rfl
    · split
      · next t storage' heq =>
        rw [heq] at hc
        simpa using (t.pendingOrdersForAddress_filledOrders storage' request.userAddress).trans hc
      · next t storage' heq =>
        rw [heq] at hc
        exact hc

theorem filledOrders_keep_filledOrders {s s' : OrderIndexer} {blockNumber : Nat}
    {orders : List B256} (h : s.filledOrders blockNumber orders = some s') :
    s'.orderStorage.filledOrders = s.orderStorage.filledOrders := by
  unfold filledOrders at h
  split at h
  · cases h
    rfl
  · obtain ⟨storage, hs, rfl⟩ := Option.map_eq_some_iff.1 h
    exact (OrderStorage.filledOrders_addFilledOrders _ hs).trans
      (s.orderTracker.storage_filledOrders_filledOrders s.orderStorage orders)

theorem finishNewBlockProcessing_filledOrders {s s' : OrderIndexer} {blockNumber : Nat}
    {completedOrders : List B256} {addressChanges : List Nat} {now : Nat}
    (h : s.finishNewBlockProcessing blockNumber completedOrders addressChanges now = some s') :
    s'.orderStorage.filledOrders = s.orderStorage.filledOrders := by
  unfold finishNewBlockProcessing at h
  obtain ⟨s₁, h₁, rfl⟩ := Option.map_eq_some_iff.1 h
  have hfill := filledOrders_keep_filledOrders h₁
  simp only [eoaStateChange, OrderTracker.eoaStateChanges_filledOrders,
    OrderTracker.removeExpiredOrders_filledOrders, purgeCancelled,
    OrderStorage.filledOrders_purgeUserOrders, OrderStorage.filledOrders_purgeTobOrders]
  exact hfill

theorem step_filledOrders {s s' : OrderIndexer} {e : IndexerEvent} (h : s.step e = some s') :
    s'.orderStorage.filledOrders = s.orderStorage.filledOrders := by
  cases e with
  | newOrder order =>
    cases h
    unfold newOrder
    dsimp only
    split_ifs <;> rfl
  | validatedOrder res => exact handleValidatedOrder_filledOrders h
  | cancelOrder request now =>
    cases h
    exact s.cancelOrder_filledOrders request now
  | finishNewBlockProcessing blockNumber completedOrders addressChanges now =>
    exact finishNewBlockProcessing_filledOrders h
  | finalizedBlock blockNumber =>
    cases h
    rfl
  | reorg orders =>
    cases h
    rfl

theorem filledOrders_eq_empty_of_reachable {ids : List PoolId} {s : OrderIndexer}
    (h : Transition.Reachable (system ids) s) : s.orderStorage.filledOrders = ∅ := by
  have hinv : Transition.Invariant (system ids) fun s => s.orderStorage.filledOrders = ∅ := by
    constructor
    · rintro s ⟨blockNumber, rfl⟩
      rfl
    · intro s e s' hs hstep
      exact (step_filledOrders hstep).trans hs
  exact hinv.reachable h

theorem fetchStatusOfOrder_ne_filled_of_reachable {ids : List PoolId} {s : OrderIndexer}
    (h : Transition.Reachable (system ids) s) (order : B256) :
    s.orderStorage.fetchStatusOfOrder order ≠ some (some .filled) :=
  OrderStorage.fetchStatusOfOrder_ne_filled (filledOrders_eq_empty_of_reachable h) order

end OrderIndexer

/-! ## Runs -/

def parkedCancelRun : List IndexerEvent :=
  [.newOrder parkedAsk.order, .validatedOrder (.valid parkedAsk), .cancelOrder ⟨0, 9, true⟩ 100]

def filledRun : List IndexerEvent :=
  [.newOrder lowGasBid.order, .validatedOrder (.valid lowGasBid),
    .finishNewBlockProcessing 1 [7] [] 100]

/-- No run reports an order as filled. After a parked order is cancelled, the validator has
answered everything, the tracker has dropped the order and the storage still holds it; after a
pending order is filled, it waits for finalization with no status. -/
theorem tracker_storage_diverge :
    (∀ (ids : List PoolId) (s : OrderIndexer), Transition.Reachable (OrderIndexer.system ids) s →
      ∀ order, s.orderStorage.fetchStatusOfOrder order ≠ some (some .filled)) ∧
    (Transition.runOption OrderIndexer.step (OrderIndexer.new [0] 0) parkedCancelRun).map
        (fun s => ((s.orderTracker.orderHashToOrderId.lookup 9).isNone,
          (s.orderStorage.limitOrders.getOrder 0 9).isSome, s.validating)) = some (true, true, []) ∧
    (Transition.runOption OrderIndexer.step (OrderIndexer.new [0] 0) filledRun).map
        (fun s => (s.orderStorage.pendingFinalizationOrders.hasOrder 7,
          s.orderStorage.fetchStatusOfOrder 7, s.validating)) = some (true, some none, []) := by
  refine ⟨fun ids s h order => OrderIndexer.fetchStatusOfOrder_ne_filled_of_reachable h order,
    by decide, by decide⟩

end Angstrom.OrderPool
