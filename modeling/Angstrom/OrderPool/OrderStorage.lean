import Angstrom.OrderPool.LimitPool

/-!
# Order storage

`crates/order-pool/src/order_storage.rs` and `crates/order-pool/src/finalization_pool.rs`. The
storage holds the limit pool, the searcher pool (a pending pool per pool id), the orders filled
in a block and waiting for it to be final, and a map `filled_orders` of filled hashes.

`fetch_status_of_order` answers `Filled` only for a hash in `filled_orders`, and no function of
the storage writes that map: every operation leaves it as it was (`filledOrders_*`), so a
storage made by `new` never reports a filled order.
-/

namespace Angstrom.OrderPool

/-- `FinalizationPool`: the filled orders by hash, and their hashes by block. -/
structure FinalizationPool where
  idToOrders : AList fun _ : B256 => OrderWithStorageData AllOrders
  blockToIds : AList fun _ : Nat => List B256

namespace FinalizationPool

def new : FinalizationPool := ⟨∅, ∅⟩

/-- `new_orders`: the orders under their hashes, and the hashes under the block; the `assert!`
panics when the block had hashes already. -/
def newOrders (p : FinalizationPool) (block : Nat) (orders : List (OrderWithStorageData AllOrders)) :
    Option FinalizationPool :=
  let idToOrders := orders.foldl (fun m order => m.insert order.order.orderHash order) p.idToOrders
  let ids := orders.map fun order => order.order.orderHash
  match p.blockToIds.lookup block with
  | none => some ⟨idToOrders, p.blockToIds.insert block ids⟩
  | some _ => none

def hasOrder (p : FinalizationPool) (order : B256) : Bool := (p.idToOrders.lookup order).isSome

/-- One hash out of `id_to_orders`, with the order it held; the loop body of `reorg` and of
`finalized`. -/
def takeOrder (acc : List (OrderWithStorageData AllOrders) × FinalizationPool) (id : B256) :
    List (OrderWithStorageData AllOrders) × FinalizationPool :=
  match acc.2.idToOrders.lookup id with
  | some order => (acc.1 ++ [order], { acc.2 with idToOrders := acc.2.idToOrders.erase id })
  | none => acc

def reorg (p : FinalizationPool) (orders : List B256) :
    List (OrderWithStorageData AllOrders) × FinalizationPool :=
  orders.foldl takeOrder ([], p)

def finalized (p : FinalizationPool) (block : Nat) :
    List (OrderWithStorageData AllOrders) × FinalizationPool :=
  match p.blockToIds.lookup block with
  | none => ([], p)
  | some ids => ids.foldl takeOrder ([], { p with blockToIds := p.blockToIds.erase block })

end FinalizationPool

/-- `SearcherPoolError`. -/
inductive SearcherPoolError
  | noPool (poolId : PoolId)
  deriving DecidableEq, Repr

/-- `OrderStorage`, without metrics. The limit pool holds the vanilla limit orders; the pool of
composable orders is left out. The searcher pool's top-of-block orders have the order type of
the limit orders here. -/
structure OrderStorage where
  limitOrders : LimitPool
  searcherOrders : AList fun _ : PoolId => PendingPool AllOrders
  pendingFinalizationOrders : FinalizationPool
  /-- Filled hashes, with the time they were filled. -/
  filledOrders : AList fun _ : B256 => Nat

namespace OrderStorage

def new (ids : List PoolId) : OrderStorage :=
  ⟨LimitPool.new ids, ids.foldl (fun m id => m.insert id PendingPool.new) ∅, FinalizationPool.new, ∅⟩

def searcherHasOrder (s : OrderStorage) (orderHash : B256) : Bool :=
  s.searcherOrders.entries.any fun e => (e.2.getOrder orderHash).isSome

/-- `fetch_status_of_order`; the limit pool's `get_order_status` may panic. -/
def fetchStatusOfOrder (s : OrderStorage) (order : B256) : Option (Option OrderStatus) :=
  if (s.filledOrders.lookup order).isSome && s.pendingFinalizationOrders.hasOrder order then
    some (some .filled)
  else if s.searcherHasOrder order then some (some .pending)
  else s.limitOrders.getOrderStatus order

def searcherCancelOrder (s : OrderStorage) (id : OrderId) : Bool × OrderStorage :=
  match s.searcherOrders.lookup id.poolId with
  | some pool =>
    let r := pool.cancelOrder id.hash
    (r.1, { s with searcherOrders := s.searcherOrders.insert id.poolId r.2 })
  | none => (false, s)

/-- `cancel_order`: an order waiting for finalization counts as cancelled. -/
def cancelOrder (s : OrderStorage) (orderId : OrderId) : Bool × OrderStorage :=
  if s.pendingFinalizationOrders.hasOrder orderId.hash then (true, s)
  else
    match orderId.location with
    | .limit =>
      let r := s.limitOrders.cancelOrder orderId
      (r.1, { s with limitOrders := r.2 })
    | .searcher => s.searcherCancelOrder orderId

def removeSearcherOrder (s : OrderStorage) (id : OrderId) :
    Option (OrderWithStorageData AllOrders) × OrderStorage :=
  match s.searcherOrders.lookup id.poolId with
  | some pool =>
    let r := pool.searcherRemoveOrder id.hash
    (r.1, { s with searcherOrders := s.searcherOrders.insert id.poolId r.2 })
  | none => (none, s)

def removeLimitOrder (s : OrderStorage) (id : OrderId) :
    Option (OrderWithStorageData AllOrders) × OrderStorage :=
  let r := s.limitOrders.removeOrder id.poolId id.hash
  (r.1, { s with limitOrders := r.2 })

def removeOrderFromId (s : OrderStorage) (orderId : OrderId) :
    Option (OrderWithStorageData AllOrders) × OrderStorage :=
  match orderId.location with
  | .limit => s.removeLimitOrder orderId
  | .searcher => s.removeSearcherOrder orderId

/-- `remove_parked_order`: a parked limit order, or else a searcher order. -/
def removeParkedOrder (s : OrderStorage) (id : OrderId) :
    Option (OrderWithStorageData AllOrders) × OrderStorage :=
  match s.limitOrders.removeParkedOrder id.poolId id.hash with
  | (some order, l) => (some order, { s with limitOrders := l })
  | (none, l) => { s with limitOrders := l }.removeSearcherOrder id

def purgeTobOrders (s : OrderStorage) : List (OrderWithStorageData AllOrders) × OrderStorage :=
  ((s.searcherOrders.entries.map fun e => e.2.searcherRemoveAllCancelledOrders.1).flatten,
    { s with searcherOrders := s.searcherOrders.mapValues fun _ pool => pool.searcherRemoveAllCancelledOrders.2 })

def purgeUserOrders (s : OrderStorage) : List (OrderWithStorageData AllOrders) × OrderStorage :=
  let r := s.limitOrders.removeAllCancelledOrders
  (r.1, { s with limitOrders := r.2 })

def addNewLimitOrder (s : OrderStorage) (order : OrderWithStorageData AllOrders) :
    Except LimitPoolError OrderStorage :=
  (s.limitOrders.addOrder order).map fun l => { s with limitOrders := l }

def addNewSearcherOrder (s : OrderStorage) (order : OrderWithStorageData AllOrders) :
    Except SearcherPoolError OrderStorage :=
  match s.searcherOrders.lookup order.poolId with
  | none => .error (.noPool order.poolId)
  | some pool => .ok { s with searcherOrders := s.searcherOrders.insert order.poolId (pool.addOrder order) }

def addFilledOrders (s : OrderStorage) (blockNumber : Nat) (orders : List (OrderWithStorageData AllOrders)) :
    Option OrderStorage :=
  (s.pendingFinalizationOrders.newOrders blockNumber orders).map fun p =>
    { s with pendingFinalizationOrders := p }

def finalizedBlock (s : OrderStorage) (blockNumber : Nat) : OrderStorage :=
  { s with pendingFinalizationOrders := (s.pendingFinalizationOrders.finalized blockNumber).2 }

def reorg (s : OrderStorage) (orderHashes : List B256) :
    List (OrderWithStorageData AllOrders) × OrderStorage :=
  let r := s.pendingFinalizationOrders.reorg orderHashes
  (r.1, { s with pendingFinalizationOrders := r.2 })

/-- `apply_new_gas_and_return_blocked_orders`: `update_gas` on each pool in turn. -/
def applyNewGasAndReturnBlockedOrders (s : OrderStorage) (gasUpdates : List UpdatedGas) :
    Option (List AllOrders × OrderStorage) :=
  (gasUpdates.foldlM (fun (acc : List AllOrders × LimitPool) gas => (acc.2.updateGas gas.poolId gas).map fun r => (acc.1 ++ r.1, r.2))
    ([], s.limitOrders)).map fun r => (r.1, { s with limitOrders := r.2 })

/-- `remove_invalid_order`: the hash leaves every searcher pool and every limit pool. -/
def removeInvalidOrder (s : OrderStorage) (orderHash : B256) : OrderStorage :=
  { s with
    searcherOrders := s.searcherOrders.mapValues fun _ pool => (pool.searcherRemoveOrder orderHash).2
    limitOrders := s.limitOrders.removeInvalidOrder orderHash }

/-! ## `filled_orders` is never written -/

section Filled

variable (s : OrderStorage)

@[simp] theorem filledOrders_cancelOrder (id : OrderId) : (s.cancelOrder id).2.filledOrders = s.filledOrders := by
  unfold cancelOrder searcherCancelOrder
  split
  · rfl
  · split
    · rfl
    · split <;> rfl

@[simp] theorem filledOrders_removeSearcherOrder (id : OrderId) :
    (s.removeSearcherOrder id).2.filledOrders = s.filledOrders := by
  unfold removeSearcherOrder
  split <;> rfl

@[simp] theorem filledOrders_removeLimitOrder (id : OrderId) :
    (s.removeLimitOrder id).2.filledOrders = s.filledOrders := rfl

@[simp] theorem filledOrders_removeOrderFromId (id : OrderId) :
    (s.removeOrderFromId id).2.filledOrders = s.filledOrders := by
  unfold removeOrderFromId
  split <;> simp

@[simp] theorem filledOrders_removeParkedOrder (id : OrderId) :
    (s.removeParkedOrder id).2.filledOrders = s.filledOrders := by
  unfold removeParkedOrder
  split
  · rfl
  · exact filledOrders_removeSearcherOrder _ id

@[simp] theorem filledOrders_purgeTobOrders : s.purgeTobOrders.2.filledOrders = s.filledOrders := rfl

@[simp] theorem filledOrders_purgeUserOrders : s.purgeUserOrders.2.filledOrders = s.filledOrders := rfl

theorem filledOrders_addNewLimitOrder {order : OrderWithStorageData AllOrders} {s' : OrderStorage}
    (h : s.addNewLimitOrder order = .ok s') : s'.filledOrders = s.filledOrders := by
  unfold addNewLimitOrder at h
  cases hl : s.limitOrders.addOrder order with
  | error e =>
    rw [hl] at h
    cases h
  | ok l =>
    rw [hl] at h
    cases h
    rfl

theorem filledOrders_addNewSearcherOrder {order : OrderWithStorageData AllOrders} {s' : OrderStorage}
    (h : s.addNewSearcherOrder order = .ok s') : s'.filledOrders = s.filledOrders := by
  unfold addNewSearcherOrder at h
  split at h
  · cases h
  · cases h
    rfl

theorem filledOrders_addFilledOrders {blockNumber : Nat} {orders : List (OrderWithStorageData AllOrders)}
    {s' : OrderStorage} (h : s.addFilledOrders blockNumber orders = some s') :
    s'.filledOrders = s.filledOrders := by
  obtain ⟨p, -, rfl⟩ := Option.map_eq_some_iff.1 h
  rfl

@[simp] theorem filledOrders_finalizedBlock (blockNumber : Nat) :
    (s.finalizedBlock blockNumber).filledOrders = s.filledOrders := rfl

@[simp] theorem filledOrders_reorg (orderHashes : List B256) :
    (s.reorg orderHashes).2.filledOrders = s.filledOrders := rfl

theorem filledOrders_applyNewGas {gasUpdates : List UpdatedGas} {r : List AllOrders × OrderStorage}
    (h : s.applyNewGasAndReturnBlockedOrders gasUpdates = some r) : r.2.filledOrders = s.filledOrders := by
  unfold applyNewGasAndReturnBlockedOrders at h
  obtain ⟨r', -, rfl⟩ := Option.map_eq_some_iff.1 h
  rfl

@[simp] theorem filledOrders_removeInvalidOrder (orderHash : B256) :
    (s.removeInvalidOrder orderHash).filledOrders = s.filledOrders := rfl

end Filled

theorem fetchStatusOfOrder_ne_filled {s : OrderStorage} (h : s.filledOrders = ∅) (order : B256) :
    s.fetchStatusOfOrder order ≠ some (some .filled) := by
  unfold fetchStatusOfOrder
  rw [h]
  simp only [AList.lookup_empty, Option.isSome_none, Bool.false_and, Bool.false_eq_true, if_false]
  split
  · simp
  · exact s.limitOrders.getOrderStatus_ne_filled order

end OrderStorage

end Angstrom.OrderPool
