import Angstrom.OrderPool.PendingPool

/-!
# The limit order pool

`crates/order-pool/src/limit/standard.rs` and `crates/order-pool/src/limit/parked.rs`. The limit
pool holds, for every pool id it knows, a pending pool of orders that are valid now and a parked
pool of orders that wait for a balance or an approval. A panic of the source is `none` here.

`update_gas` sweeps a pending pool with `retain`, which drops the orders whose `max_gas_token_0`
is below the gas of their book, and then calls `remove_order(..).unwrap()` on each dropped hash.
The order is no longer in the map by then, so `remove_order` returns `None` and the `unwrap`
panics: `update_gas` panics exactly when it drops an order (`updateGas_eq_none_iff`). When it
drops none, it changes the gas of the orders' priorities in place without moving their index
entries.

`cancel_order` asks the pending pool of the order's pool, and the parked pool only when there is
no pending pool; every pool made by `new` has both, so a parked order there is never marked
(`cancelOrder_of_pending`). `new_pool` makes a pending pool and, because `||` stops at its first
true operand, no parked pool for a new id (`newPool_fresh`). `park_order` moves an order to the
parked pool with only `is_currently_valid` changed (`parkOrder_eq`).
-/

namespace Angstrom.OrderPool

/-- `AllOrders`, by what the pools and the indexer read of it: `order_hash()`, `from()`,
`deadline()`, `use_internal()` and `max_gas_token_0()`. -/
structure AllOrders where
  orderHash : B256
  fromAddress : Nat
  deadline : Option Nat
  useInternal : Bool
  maxGasToken0 : Nat
  deriving DecidableEq, Repr

/-- `UpdatedGas`, without the top-of-block gases, which the limit pool does not read. -/
structure UpdatedGas where
  poolId : PoolId
  gasInternalBook : Nat
  gasExternalBook : Nat
  deriving DecidableEq, Repr

/-- `LimitPoolError`. -/
inductive LimitPoolError
  | noPool (poolId : PoolId)
  deriving DecidableEq, Repr

/-- `OrderStatus`. -/
inductive OrderStatus
  | filled
  | pending
  | blocked (token approvalNeeded balanceNeeded : Nat)
  | missingGas (needed maxSet : Nat)
  | orderNotFound
  deriving DecidableEq, Repr

def OrderStatus.tryFromErr : UserAccountVerificationError → Option OrderStatus
  | .insufficientBoth tokenIn amountBalance amountApproval =>
    some (.blocked tokenIn amountApproval amountBalance)
  | .insufficientBalance tokenIn amount => some (.blocked tokenIn 0 amount)
  | .insufficientApproval tokenIn amount => some (.blocked tokenIn amount 0)
  | .notEnoughGas neededGas setGas => some (.missingGas neededGas setGas)
  | .unknown _ => some (.blocked 0 0 0)
  | .other => none

/-- `ParkedPool`: the orders by hash. -/
structure ParkedPool where
  orders : AList fun _ : B256 => OrderWithStorageData AllOrders

namespace ParkedPool

def new : ParkedPool := ⟨∅⟩

def getOrder (p : ParkedPool) (orderId : B256) : Option (OrderWithStorageData AllOrders) :=
  p.orders.lookup orderId

def cancelOrder (p : ParkedPool) (id : B256) : Bool × ParkedPool :=
  let r := cancelIn p.orders id
  (r.1, ⟨r.2⟩)

def removeOrder (p : ParkedPool) (orderId : B256) : Option (OrderWithStorageData AllOrders) × ParkedPool :=
  (p.orders.lookup orderId, ⟨p.orders.erase orderId⟩)

def newOrder (p : ParkedPool) (order : OrderWithStorageData AllOrders) : ParkedPool :=
  ⟨p.orders.insert order.order.orderHash order⟩

def removeAllCancelledOrders (p : ParkedPool) : List (OrderWithStorageData AllOrders) × ParkedPool :=
  removeAllCancelledOrdersWith ParkedPool.orders removeOrder p

theorem removeAllCancelledOrders_spec (p : ParkedPool) :
    p.removeAllCancelledOrders.1 = (cancelledIds p.orders).filterMap (fun h => p.orders.lookup h) ∧
      ∀ h, p.removeAllCancelledOrders.2.orders.lookup h =
        (p.orders.lookup h).filter fun o => !o.cancelRequested := by
  obtain ⟨h1, -, h3⟩ := removeAllCancelledOrdersWith_spec ParkedPool.orders removeOrder
    (fun _ => True) (fun q id h => AList.lookup_erase_eq_ite q.orders id h) (fun _ _ _ => rfl)
    (fun _ _ _ => trivial) p trivial
  exact ⟨h1, h3⟩

end ParkedPool

/-- `LimitPool`, without its metrics. -/
structure LimitPool where
  pendingOrders : AList fun _ : PoolId => PendingPool AllOrders
  parkedOrders : AList fun _ : PoolId => ParkedPool

namespace LimitPool

def new (ids : List PoolId) : LimitPool :=
  ⟨ids.foldl (fun m id => m.insert id PendingPool.new) ∅,
    ids.foldl (fun m id => m.insert id ParkedPool.new) ∅⟩

/-- The gas of the book an order trades in: the internal book's for an order that uses its
internal balance. The two branches of the closure of `retain` in `update_gas` differ in this
alone. -/
def bookGas (gas : UpdatedGas) (v : OrderWithStorageData AllOrders) : Nat :=
  if v.order.useInternal then gas.gasInternalBook else gas.gasExternalBook

def badOrders (gas : UpdatedGas) (pool : PendingPool AllOrders) : List B256 :=
  (pool.orders.entries.filter fun e => e.2.order.maxGasToken0 < bookGas gas e.2).map (·.1)

/-- The pending pool after the `retain` of `update_gas`: the dropped orders leave the map, the
others take the gas of their book, and the index is not touched. -/
def retainGas (gas : UpdatedGas) (pool : PendingPool AllOrders) : PendingPool AllOrders :=
  { pool with
    orders := (pool.orders.filterValues fun _ v => !(v.order.maxGasToken0 < bookGas gas v)).mapValues
      fun _ v => { v with priorityData := { v.priorityData with gas := bookGas gas v } } }

/-- One turn of the last loop of `update_gas`: `pool.remove_order(&order).unwrap().order`. -/
def removeBadOrder (acc : List AllOrders × PendingPool AllOrders) (order : B256) :
    Option (List AllOrders × PendingPool AllOrders) :=
  match acc.2.removeOrder order with
  | (some o, pool) => some (acc.1 ++ [o.order], pool)
  | (none, _) => none

def updateGas (l : LimitPool) (id : PoolId) (gas : UpdatedGas) : Option (List AllOrders × LimitPool) :=
  match l.pendingOrders.lookup id with
  | none => some ([], l)
  | some pool =>
    ((badOrders gas pool).foldlM removeBadOrder ([], retainGas gas pool)).map fun r =>
      (r.1, { l with pendingOrders := l.pendingOrders.insert id r.2 })

def getOrder (l : LimitPool) (poolId : PoolId) (orderId : B256) :
    Option (OrderWithStorageData AllOrders) :=
  ((l.pendingOrders.lookup poolId).bind fun pool => pool.getOrder orderId).or
    ((l.parkedOrders.lookup poolId).bind fun pool => pool.getOrder orderId)

/-- `add_order`: a valid order to the pending pool of its pool, another to the parked one. -/
def addOrder (l : LimitPool) (order : OrderWithStorageData AllOrders) :
    Except LimitPoolError LimitPool :=
  if order.isCurrentlyValid.isNone then
    match l.pendingOrders.lookup order.poolId with
    | none => .error (.noPool order.poolId)
    | some pool => .ok { l with pendingOrders := l.pendingOrders.insert order.poolId (pool.addOrder order) }
  else
    match l.parkedOrders.lookup order.poolId with
    | none => .error (.noPool order.poolId)
    | some pool => .ok { l with parkedOrders := l.parkedOrders.insert order.poolId (pool.newOrder order) }

/-- `remove_order`: the pending pool's `remove_order`, and the parked pool's when that returns
`None`, with what the pending pool's did to its pool kept. -/
def removeOrder (l : LimitPool) (poolId : PoolId) (orderId : B256) :
    Option (OrderWithStorageData AllOrders) × LimitPool :=
  let r : Option (OrderWithStorageData AllOrders) × LimitPool :=
    match l.pendingOrders.lookup poolId with
    | none => (none, l)
    | some pool =>
      let r := pool.removeOrder orderId
      (r.1, { l with pendingOrders := l.pendingOrders.insert poolId r.2 })
  match r with
  | (some order, l) => (some order, l)
  | (none, l) =>
    match l.parkedOrders.lookup poolId with
    | none => (none, l)
    | some pool =>
      let r := pool.removeOrder orderId
      (r.1, { l with parkedOrders := l.parkedOrders.insert poolId r.2 })

def removeParkedOrder (l : LimitPool) (poolId : PoolId) (orderId : B256) :
    Option (OrderWithStorageData AllOrders) × LimitPool :=
  match l.parkedOrders.lookup poolId with
  | none => (none, l)
  | some pool =>
    let r := pool.removeOrder orderId
    (r.1, { l with parkedOrders := l.parkedOrders.insert poolId r.2 })

/-- `remove_invalid_order`: the hash leaves every pending and every parked pool. -/
def removeInvalidOrder (l : LimitPool) (orderHash : B256) : LimitPool :=
  ⟨l.pendingOrders.mapValues fun _ pool => (pool.removeOrder orderHash).2,
    l.parkedOrders.mapValues fun _ pool => (pool.removeOrder orderHash).2⟩

/-- `cancel_order`: the pending pool of the order's pool when there is one, the parked pool
otherwise. -/
def cancelOrder (l : LimitPool) (id : OrderId) : Bool × LimitPool :=
  match l.pendingOrders.lookup id.poolId with
  | some pool =>
    let r := pool.cancelOrder id.hash
    (r.1, { l with pendingOrders := l.pendingOrders.insert id.poolId r.2 })
  | none =>
    match l.parkedOrders.lookup id.poolId with
    | some pool =>
      let r := pool.cancelOrder id.hash
      (r.1, { l with parkedOrders := l.parkedOrders.insert id.poolId r.2 })
    | none => (false, l)

/-- `remove_all_cancelled_orders`: every pending pool's, then every parked pool's. -/
def removeAllCancelledOrders (l : LimitPool) : List (OrderWithStorageData AllOrders) × LimitPool :=
  ((l.pendingOrders.entries.map fun e => e.2.removeAllCancelledOrders.1).flatten ++
      (l.parkedOrders.entries.map fun e => e.2.removeAllCancelledOrders.1).flatten,
    ⟨l.pendingOrders.mapValues fun _ pool => pool.removeAllCancelledOrders.2,
      l.parkedOrders.mapValues fun _ pool => pool.removeAllCancelledOrders.2⟩)

/-- `park_order`: remove the order, mark it invalid and add it again; the `unwrap` of
`add_order` panics. -/
def parkOrder (l : LimitPool) (orderId : OrderId) : Option LimitPool :=
  match l.removeOrder orderId.poolId orderId.hash with
  | (none, l) => some l
  | (some order, l) =>
    match l.addOrder { order with isCurrentlyValid := some (.unknown "parked by other transaction") } with
    | .ok l => some l
    | .error _ => none

/-- `new_pool`: the `assert!` panics when the id had a pending pool and a parked pool. The
parked pool is only made when the id had a pending pool already. -/
def newPool (l : LimitPool) (id : PoolId) : Option LimitPool :=
  let oldPending := l.pendingOrders.lookup id
  let l := { l with pendingOrders := l.pendingOrders.insert id PendingPool.new }
  if oldPending.isNone then some l
  else
    let oldParked := l.parkedOrders.lookup id
    let l := { l with parkedOrders := l.parkedOrders.insert id ParkedPool.new }
    if oldParked.isNone then some l else none

/-- `get_order_status`: `Pending` for an order of a pending pool, the status of the error of an
order of a parked pool; both `unwrap`s panic. -/
def getOrderStatus (l : LimitPool) (orderHash : B256) : Option (Option OrderStatus) :=
  match l.pendingOrders.entries.findSome? fun e => (e.2.getOrder orderHash).map fun _ => OrderStatus.pending with
  | some status => some (some status)
  | none =>
    match l.parkedOrders.entries.findSome? fun e => e.2.getOrder orderHash with
    | none => some none
    | some order =>
      match order.isCurrentlyValid with
      | none => none
      | some err => (OrderStatus.tryFromErr err).map some

/-! ## `update_gas` -/

theorem mem_badOrders {gas : UpdatedGas} {pool : PendingPool AllOrders} {h : B256} :
    h ∈ badOrders gas pool ↔
      ∃ o, pool.orders.lookup h = some o ∧ o.order.maxGasToken0 < bookGas gas o := by
  have := @AList.mem_keys_filterValues _ _ _
    (fun _ (o : OrderWithStorageData AllOrders) => decide (o.order.maxGasToken0 < bookGas gas o))
    pool.orders h
  exact this.trans (by simp only [decide_eq_true_eq])

theorem removeBadOrder_eq_none {acc : List AllOrders × PendingPool AllOrders} {order : B256}
    (h : (acc.2.removeOrder order).1 = none) : removeBadOrder acc order = none := by
  unfold removeBadOrder
  cases hr : acc.2.removeOrder order with
  | mk r q =>
    rw [hr] at h
    cases h
    rfl

theorem retainGas_lookup_of_mem {gas : UpdatedGas} {pool : PendingPool AllOrders} {h : B256}
    (hh : h ∈ badOrders gas pool) : (retainGas gas pool).orders.lookup h = none := by
  obtain ⟨o, ho, hlt⟩ := mem_badOrders.1 hh
  simp [retainGas, AList.lookup_filterValues, ho, hlt]

/-- `update_gas` panics exactly when the pool has an order whose `max_gas_token_0` is below the
gas of its book: `retain` has dropped it before `remove_order` looks for it. -/
theorem updateGas_eq_none_iff (l : LimitPool) (id : PoolId) (gas : UpdatedGas) :
    l.updateGas id gas = none ↔ ∃ pool, l.pendingOrders.lookup id = some pool ∧
      ∃ h o, pool.orders.lookup h = some o ∧ o.order.maxGasToken0 < bookGas gas o := by
  unfold updateGas
  cases hl : l.pendingOrders.lookup id with
  | none => simp
  | some pool =>
    have hpool : (∃ p, some pool = some p ∧ ∃ h o, p.orders.lookup h = some o ∧
        o.order.maxGasToken0 < bookGas gas o) ↔
          ∃ h o, pool.orders.lookup h = some o ∧ o.order.maxGasToken0 < bookGas gas o :=
      ⟨fun ⟨_, hp, hex⟩ => Option.some.inj hp ▸ hex, fun hex => ⟨pool, rfl, hex⟩⟩
    rw [hpool, Option.map_eq_none_iff]
    cases hb : badOrders gas pool with
    | nil =>
      constructor
      · intro h
        cases h
      · rintro ⟨h, o, ho, hlt⟩
        have hmem : h ∈ badOrders gas pool := mem_badOrders.2 ⟨o, ho, hlt⟩
        rw [hb] at hmem
        cases hmem
    | cons k ks =>
      have hk : k ∈ badOrders gas pool := hb ▸ List.mem_cons_self
      have hrem : ((retainGas gas pool).removeOrder k).1 = none := by
        rw [PendingPool.removeOrder_eq, retainGas_lookup_of_mem hk]
      obtain ⟨o, ho, hlt⟩ := mem_badOrders.1 hk
      refine ⟨fun _ => ⟨k, o, ho, hlt⟩, fun _ => ?_⟩
      rw [List.foldlM_cons, removeBadOrder_eq_none hrem]
      rfl

theorem updateGas_of_forall {l : LimitPool} {id : PoolId} {gas : UpdatedGas}
    {pool : PendingPool AllOrders} (hl : l.pendingOrders.lookup id = some pool)
    (hgas : ∀ h o, pool.orders.lookup h = some o → bookGas gas o ≤ o.order.maxGasToken0) :
    l.updateGas id gas =
      some ([], { l with pendingOrders := l.pendingOrders.insert id (retainGas gas pool) }) := by
  have hb : badOrders gas pool = [] := List.eq_nil_iff_forall_not_mem.2 fun h hh => by
    obtain ⟨o, ho, hlt⟩ := mem_badOrders.1 hh
    exact absurd (hgas h o ho) (Nat.not_le.2 hlt)
  rw [updateGas, hl]
  simp only [hb, List.foldlM_nil]
  rfl

/-! ## Statuses -/

theorem tryFromErr_ne_filled (e : UserAccountVerificationError) :
    OrderStatus.tryFromErr e ≠ some .filled := by
  cases e <;> simp [OrderStatus.tryFromErr]

theorem getOrderStatus_ne_filled (l : LimitPool) (orderHash : B256) :
    l.getOrderStatus orderHash ≠ some (some .filled) := by
  unfold getOrderStatus
  split
  · next status hfind =>
    obtain ⟨e, -, he⟩ := List.exists_of_findSome?_eq_some hfind
    obtain ⟨-, -, rfl⟩ := Option.map_eq_some_iff.1 he
    simp
  · split
    · simp
    · split
      · simp
      · next err _ =>
        intro h
        obtain ⟨st, hst, hfill⟩ := Option.map_eq_some_iff.1 h
        cases hfill
        exact tryFromErr_ne_filled err hst

/-! ## Cancelling and parking -/

theorem cancelOrder_of_pending {l : LimitPool} {id : OrderId} {pool : PendingPool AllOrders}
    (hl : l.pendingOrders.lookup id.poolId = some pool) :
    (l.cancelOrder id).1 = (pool.getOrder id.hash).isSome ∧
      (l.cancelOrder id).2.parkedOrders = l.parkedOrders := by
  rw [cancelOrder, hl]
  exact ⟨cancelIn_fst pool.orders id.hash, rfl⟩

theorem cancelOrder_of_parked {l : LimitPool} {id : OrderId} {pool : ParkedPool}
    (hl : l.pendingOrders.lookup id.poolId = none) (hp : l.parkedOrders.lookup id.poolId = some pool) :
    (l.cancelOrder id).1 = (pool.getOrder id.hash).isSome := by
  rw [cancelOrder, hl]
  simp only [hp]
  exact cancelIn_fst pool.orders id.hash

/-- `park_order` of an order that `remove_order` finds puts it into the parked pool of its pool,
with `is_currently_valid` set and every other field as it was. -/
theorem parkOrder_eq {l l' : LimitPool} {orderId : OrderId} {order : OrderWithStorageData AllOrders}
    (hrem : l.removeOrder orderId.poolId orderId.hash = (some order, l')) {pool : ParkedPool}
    (hpark : l'.parkedOrders.lookup order.poolId = some pool) :
    l.parkOrder orderId = some { l' with parkedOrders := (l'.parkedOrders.insert order.poolId
      (pool.newOrder { order with isCurrentlyValid := some (.unknown "parked by other transaction") })) } := by
  rw [parkOrder, hrem]
  simp only [addOrder, Option.isNone_some, Bool.false_eq_true, if_false, hpark]

theorem parkOrder_eq_none {l l' : LimitPool} {orderId : OrderId}
    {order : OrderWithStorageData AllOrders}
    (hrem : l.removeOrder orderId.poolId orderId.hash = (some order, l'))
    (hpark : l'.parkedOrders.lookup order.poolId = none) : l.parkOrder orderId = none := by
  rw [parkOrder, hrem]
  simp only [addOrder, Option.isNone_some, Bool.false_eq_true, if_false, hpark]

theorem newPool_fresh {l : LimitPool} {id : PoolId} (hl : l.pendingOrders.lookup id = none) :
    l.newPool id = some { l with pendingOrders := l.pendingOrders.insert id PendingPool.new } := by
  simp [newPool, hl]

end LimitPool

/-! ## Runs -/

def lowGasBid : OrderWithStorageData AllOrders where
  order := ⟨7, 0, none, false, 1⟩
  orderId := ⟨0, 0, 7, none, none, .limit⟩
  poolId := 0
  isBid := true
  priorityData := ⟨1, 1, 0, 0⟩
  isCurrentlyValid := none
  cancelRequested := false
  validBlock := 0
  invalidates := []

def twinBid : OrderWithStorageData AllOrders :=
  { lowGasBid with order := ⟨8, 0, none, false, 1⟩, orderId := ⟨0, 0, 8, none, none, .limit⟩ }

def oneBidPool : LimitPool :=
  { LimitPool.new [0] with
    pendingOrders := (LimitPool.new [0]).pendingOrders.insert 0 (PendingPool.new.addOrder lowGasBid) }

def twinRun : PendingPool AllOrders :=
  (((PendingPool.new.addOrder lowGasBid).addOrder twinBid).removeOrder 7).2

/-- `update_gas` panics on a pool with an order below the new gas. Where it drops nothing, it
re-prices the order without moving its index entry, and `remove_order` then loses the stored
order. Two bids of one priority lose the second the same way. -/
theorem updateGas_panics_and_desyncs :
    (oneBidPool.updateGas 0 ⟨0, 5, 5⟩).isNone = true ∧
      (oneBidPool.updateGas 0 ⟨0, 1, 1⟩).map
          (fun r => ((r.2.getOrder 0 7).isSome, (r.2.removeOrder 0 7).1.isNone)) = some (true, true) ∧
      ((twinRun.getOrder 8).isSome, (twinRun.removeOrder 8).1.isNone) = (true, true) := by
  refine ⟨by decide, by decide, by decide⟩

def parkedAsk : OrderWithStorageData AllOrders :=
  { lowGasBid with
    order := ⟨9, 0, none, false, 1⟩
    orderId := ⟨0, 0, 9, none, none, .limit⟩
    isBid := false
    isCurrentlyValid := some .other }

def parkedAskPool : LimitPool :=
  { LimitPool.new [0] with
    parkedOrders := (LimitPool.new [0]).parkedOrders.insert 0 (ParkedPool.new.newOrder parkedAsk) }

def newPoolBid : Option LimitPool :=
  ((LimitPool.new []).newPool 0).bind fun l => (l.addOrder lowGasBid).toOption

/-- A parked order of a pool made by `new` is stored, but `cancel_order` does not find it and
the next sweep does not return it; in a pool made by `new_pool`, `park_order` panics. -/
theorem cancelOrder_misses_parked :
    (parkedAskPool.getOrder 0 9).isSome = true ∧
      (parkedAskPool.cancelOrder parkedAsk.orderId).1 = false ∧
      (parkedAskPool.cancelOrder parkedAsk.orderId).2.removeAllCancelledOrders.1 = [] ∧
      newPoolBid.map (fun l => (l.parkOrder lowGasBid.orderId).isNone) = some true := by
  refine ⟨by decide, by decide, by decide, by decide⟩

end Angstrom.OrderPool
