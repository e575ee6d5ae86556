import Angstrom.Lib.AListMap

/-!
# Pending order pools

`crates/order-pool/src/limit/pending.rs` and `crates/order-pool/src/searcher/pending.rs`. A
pending pool keeps its orders in a hash map from order hash to order, and indexes them by
priority in two sorted maps, `bids` and `asks`, from an order's `OrderPriorityData` to its hash.
The maps are `AList`s here. What the properties below use of a `BTreeMap` is that it holds one
value per key, which an `AList` does as well; its order only matters to the readers of a pool,
which are left out. Order hashes and pool ids are numbers.

The index is in sync with the orders (`Synced`) when every stored order has the entry of its
priority on its side, mapping to its hash, and there are no other entries. A new pool is in
sync. `cancel_order`, both pools' `remove_order` and `remove_all_cancelled_orders` keep it in
sync, and so does `add_order` of an order whose hash is new and whose priority is free on its
side (`Synced.addOrder`). In sync, `remove_order` returns exactly the stored order
(`Synced.removeOrder`).

Without those guards `add_order` breaks the index. A second bid of the same priority overwrites
the first's entry, and removing the first then deletes the second's entry. The second bid stays
stored with no entry, and the limit pool's `remove_order`, whose `?` returns after the order has
already left the hash map, reports it absent (`addOrder_not_synced`, and the run of
`LimitPool.updateGas_panics_and_desyncs`). The searcher pool
ignores the index when it removes, and always returns the stored order
(`searcherRemoveOrder_fst`).
-/

namespace Angstrom.OrderPool

/-- An order hash or a pool id (`B256`). -/
abbrev B256 := Nat

/-- `PoolId`. -/
abbrev PoolId := B256

/-- `OrderLocation`. -/
inductive OrderLocation
  | limit
  | searcher
  deriving DecidableEq, Repr

/-- `OrderId`, without its `reuse_avoidance`, which nothing modelled reads. -/
structure OrderId where
  address : Nat
  poolId : PoolId
  hash : B256
  deadline : Option Nat
  flashBlock : Option Nat
  location : OrderLocation
  deriving DecidableEq, Repr

/-- `OrderPriorityData`: two are the same key of a sorted map when all four fields agree. -/
structure OrderPriorityData where
  price : Nat
  volume : Nat
  gas : Nat
  gasUnits : Nat
  deriving DecidableEq, Repr

/-- `UserAccountVerificationError`: the variants `OrderStatus::try_from_err` converts, and one
for all the others. -/
inductive UserAccountVerificationError
  | insufficientApproval (tokenIn amount : Nat)
  | insufficientBalance (tokenIn amount : Nat)
  | insufficientBoth (tokenIn amountBalance amountApproval : Nat)
  | notEnoughGas (neededGas setGas : Nat)
  | unknown (err : String)
  /-- `InvalidToBSwap`, `BlockMissMatch`, `OrderIsCancelled` and the rest. -/
  | other
  deriving DecidableEq, Repr

/-- `OrderWithStorageData<Order>`: the fields the pools and the indexer read. -/
structure OrderWithStorageData (α : Type) where
  order : α
  orderId : OrderId
  poolId : PoolId
  isBid : Bool
  priorityData : OrderPriorityData
  /-- `None` for an order that is valid now; an order with an error is parked. -/
  isCurrentlyValid : Option UserAccountVerificationError
  cancelRequested : Bool
  validBlock : Nat
  /-- The hashes of the orders this one invalidates. -/
  invalidates : List B256
  deriving DecidableEq, Repr

/-! ## Maps of orders by hash

The pending pools and the parked pool keep their orders in a hash map by order hash, and mark and
sweep cancelled orders the same way. -/

section Orders

variable {α : Type}

/-- `cancel_order` on a map of orders: the order of the hash is marked, in place. -/
def cancelIn (orders : AList fun _ : B256 => OrderWithStorageData α) (id : B256) :
    Bool × AList fun _ : B256 => OrderWithStorageData α :=
  match orders.lookup id with
  | some order => (true, orders.insert id { order with cancelRequested := true })
  | none => (false, orders)

/-- The hashes of the marked orders of a map, as `remove_all_cancelled_orders` collects them. -/
def cancelledIds (orders : AList fun _ : B256 => OrderWithStorageData α) : List B256 :=
  (orders.entries.filter fun e => e.2.cancelRequested).map (·.1)

/-- One turn of the loop of `remove_all_cancelled_orders`: the pool's `remove_order`, and the
order it returns pushed onto the result. -/
def removeStep {P : Type} (remove : P → B256 → Option (OrderWithStorageData α) × P)
    (acc : List (OrderWithStorageData α) × P) (id : B256) : List (OrderWithStorageData α) × P :=
  match remove acc.2 id with
  | (some order, p) => (acc.1 ++ [order], p)
  | (none, p) => (acc.1, p)

/-- `remove_all_cancelled_orders` of a pool, given its map of orders and its `remove_order`. -/
def removeAllCancelledOrdersWith {P : Type} (orders : P → AList fun _ : B256 => OrderWithStorageData α)
    (remove : P → B256 → Option (OrderWithStorageData α) × P) (p : P) :
    List (OrderWithStorageData α) × P :=
  (cancelledIds (orders p)).foldl (removeStep remove) ([], p)

theorem lookup_cancelIn (orders : AList fun _ : B256 => OrderWithStorageData α) (id h : B256) :
    (cancelIn orders id).2.lookup h =
      (orders.lookup h).map fun o => if h = id then { o with cancelRequested := true } else o := by
  unfold cancelIn
  by_cases hh : h = id
  · subst hh
    cases hl : orders.lookup h with
    | none => simp [hl]
    | some order => simp [AList.lookup_insert]
  · cases orders.lookup id with
    | none => simp [hh]
    | some order => simp [AList.lookup_insert_ne hh, hh]

theorem cancelIn_fst (orders : AList fun _ : B256 => OrderWithStorageData α) (id : B256) :
    (cancelIn orders id).1 = (orders.lookup id).isSome := by
  unfold cancelIn
  cases orders.lookup id <;> rfl

theorem mem_cancelledIds {orders : AList fun _ : B256 => OrderWithStorageData α} {h : B256} :
    h ∈ cancelledIds orders ↔ ∃ o, orders.lookup h = some o ∧ o.cancelRequested = true :=
  @AList.mem_keys_filterValues _ _ _ (fun _ (o : OrderWithStorageData α) => o.cancelRequested) orders h

theorem nodup_cancelledIds (orders : AList fun _ : B256 => OrderWithStorageData α) :
    (cancelledIds orders).Nodup :=
  (orders.filterValues fun _ (o : OrderWithStorageData α) => o.cancelRequested).keys_nodup

section RemoveAll

variable {P : Type} (orders : P → AList fun _ : B256 => OrderWithStorageData α)
  (remove : P → B256 → Option (OrderWithStorageData α) × P)

theorem removeStep_eq (res : List (OrderWithStorageData α)) (q : P) (id : B256) :
    removeStep remove (res, q) id = (res ++ (remove q id).1.toList, (remove q id).2) := by
  unfold removeStep
  obtain ⟨_ | o, q'⟩ := remove q id <;> simp

/-- The loop of `remove_all_cancelled_orders` over distinct hashes, with a `remove_order` that
erases its hash from the map of orders and, in states of `Inv`, returns the stored order and keeps
to `Inv`: the loop returns the stored orders of the hashes and erases exactly those. -/
theorem foldl_removeStep (Inv : P → Prop)
    (herase : ∀ q id h, (orders (remove q id).2).lookup h =
      if h = id then none else (orders q).lookup h)
    (hfst : ∀ q id, Inv q → (remove q id).1 = (orders q).lookup id)
    (hinv : ∀ q id, Inv q → Inv (remove q id).2) :
    ∀ ks : List B256, ks.Nodup → ∀ res q, Inv q →
      (ks.foldl (removeStep remove) (res, q)).1 = res ++ ks.filterMap (fun h => (orders q).lookup h) ∧
      Inv (ks.foldl (removeStep remove) (res, q)).2 ∧
      ∀ h, (orders (ks.foldl (removeStep remove) (res, q)).2).lookup h =
        if h ∈ ks then none else (orders q).lookup h := by
  intro ks
  induction ks with
  | nil => exact fun _ res q hq => ⟨by simp, hq, fun h => by simp⟩
  | cons k ks ih =>
    intro hnd res q hq
    obtain ⟨hk, hnd'⟩ := List.nodup_cons.1 hnd
    have hrest : ks.filterMap (fun h => (orders (remove q k).2).lookup h) =
        ks.filterMap fun h => (orders q).lookup h := by
      apply List.filterMap_congr
      intro h hh
      rw [herase, if_neg (fun (e : h = k) => hk (e ▸ hh))]
    obtain ⟨h1, h2, h3⟩ := ih hnd' (res ++ (remove q k).1.toList) (remove q k).2 (hinv q k hq)
    rw [List.foldl_cons, removeStep_eq]
    refine ⟨?_, h2, fun h => ?_⟩
    · rw [h1, hrest, hfst q k hq, List.filterMap_cons]
      cases (orders q).lookup k <;> simp
    · rw [h3, herase]
      by_cases hks : h ∈ ks
      · simp [hks]
      · by_cases hhk : h = k <;> simp [hks, hhk]

/-- `remove_all_cancelled_orders` of a pool whose `remove_order` erases its hash and, under `Inv`,
returns the stored order and keeps to `Inv`: it returns the stored orders of the marked hashes,
keeps to `Inv`, and leaves exactly the unmarked orders. -/
theorem removeAllCancelledOrdersWith_spec (Inv : P → Prop)
    (herase : ∀ q id h, (orders (remove q id).2).lookup h =
      if h = id then none else (orders q).lookup h)
    (hfst : ∀ q id, Inv q → (remove q id).1 = (orders q).lookup id)
    (hinv : ∀ q id, Inv q → Inv (remove q id).2) (p : P) (hp : Inv p) :
    (removeAllCancelledOrdersWith orders remove p).1 =
        (cancelledIds (orders p)).filterMap (fun h => (orders p).lookup h) ∧
      Inv (removeAllCancelledOrdersWith orders remove p).2 ∧
      ∀ h, (orders (removeAllCancelledOrdersWith orders remove p).2).lookup h =
        ((orders p).lookup h).filter fun o => !o.cancelRequested := by
  obtain ⟨h1, h2, h3⟩ := foldl_removeStep orders remove Inv herase hfst hinv _
    (nodup_cancelledIds (orders p)) [] p hp
  refine ⟨h1, h2, fun h => ?_⟩
  rw [removeAllCancelledOrdersWith, h3]
  cases hl : (orders p).lookup h with
  | none => simp
  | some o =>
    have hmem : h ∈ cancelledIds (orders p) ↔ o.cancelRequested = true := by
      rw [mem_cancelledIds, hl]
      simp
    by_cases hc : o.cancelRequested = true
    · rw [if_pos (hmem.2 hc), Option.filter_some, if_neg (by simp [hc])]
    · rw [if_neg (mt hmem.1 hc), Option.filter_some, if_pos (by simpa using hc)]

end RemoveAll

end Orders

/-- `PendingPool`. -/
structure PendingPool (α : Type) where
  orders : AList fun _ : B256 => OrderWithStorageData α
  bids : AList fun _ : OrderPriorityData => B256
  asks : AList fun _ : OrderPriorityData => B256

namespace PendingPool

variable {α : Type}

def new : PendingPool α := ⟨∅, ∅, ∅⟩

def getOrder (p : PendingPool α) (id : B256) : Option (OrderWithStorageData α) := p.orders.lookup id

/-- `add_order`: the index entry of the order's priority on its side, then the order under its
hash; both inserts replace what was there. -/
def addOrder (p : PendingPool α) (order : OrderWithStorageData α) : PendingPool α :=
  let p := if order.isBid then { p with bids := p.bids.insert order.priorityData order.orderId.hash }
    else { p with asks := p.asks.insert order.priorityData order.orderId.hash }
  { p with orders := p.orders.insert order.orderId.hash order }

def cancelOrder (p : PendingPool α) (id : B256) : Bool × PendingPool α :=
  let r := cancelIn p.orders id
  (r.1, { p with orders := r.2 })

/-- `remove_order` of the limit pool: the order leaves the hash map, and then its index entry; a
missing entry returns `None` through `?`, with the order already gone from the hash map. -/
def removeOrder (p : PendingPool α) (id : B256) : Option (OrderWithStorageData α) × PendingPool α :=
  match p.orders.lookup id with
  | none => (none, p)
  | some order =>
    let p := { p with orders := p.orders.erase id }
    if order.isBid then
      match p.bids.lookup order.priorityData with
      | none => (none, p)
      | some _ => (some order, { p with bids := p.bids.erase order.priorityData })
    else
      match p.asks.lookup order.priorityData with
      | none => (none, p)
      | some _ => (some order, { p with asks := p.asks.erase order.priorityData })

/-- `remove_order` of the searcher pool: the same removals, whatever the index held. -/
def searcherRemoveOrder (p : PendingPool α) (id : B256) :
    Option (OrderWithStorageData α) × PendingPool α :=
  match p.orders.lookup id with
  | none => (none, p)
  | some order =>
    let p := { p with orders := p.orders.erase id }
    if order.isBid then (some order, { p with bids := p.bids.erase order.priorityData })
    else (some order, { p with asks := p.asks.erase order.priorityData })

def removeAllCancelledOrders (p : PendingPool α) : List (OrderWithStorageData α) × PendingPool α :=
  removeAllCancelledOrdersWith orders removeOrder p

def searcherRemoveAllCancelledOrders (p : PendingPool α) :
    List (OrderWithStorageData α) × PendingPool α :=
  removeAllCancelledOrdersWith orders searcherRemoveOrder p

/-! ## The index by sides

`side p b` is the index of the bids when `b` is set and of the asks otherwise, and `setSide`
replaces it; every operation is a change of the orders and of the side of one order. -/

def side (p : PendingPool α) (isBid : Bool) : AList fun _ : OrderPriorityData => B256 :=
  if isBid then p.bids else p.asks

def setSide (p : PendingPool α) (isBid : Bool) (m : AList fun _ : OrderPriorityData => B256) :
    PendingPool α :=
  if isBid then { p with bids := m } else { p with asks := m }

@[simp] theorem setSide_orders (p : PendingPool α) (b : Bool) (m) : (p.setSide b m).orders = p.orders := by
  cases b <;> rfl

@[simp] theorem side_setSide (p : PendingPool α) (b b' : Bool) (m) :
    (p.setSide b m).side b' = if b' = b then m else p.side b' := by
  cases b <;> cases b' <;> rfl

@[simp] theorem side_orders (p : PendingPool α) (o : AList fun _ : B256 => OrderWithStorageData α)
    (b : Bool) : ({ p with orders := o } : PendingPool α).side b = p.side b := by
  cases b <;> rfl

theorem lookup_side_insert (p : PendingPool α) (b b' : Bool) (k k' : OrderPriorityData) (h : B256) :
    ((p.setSide b ((p.side b).insert k h)).side b').lookup k' =
      if b' = b ∧ k' = k then some h else (p.side b').lookup k' := by
  rw [side_setSide]
  by_cases hb : b' = b
  · subst hb
    by_cases hk : k' = k
    · subst hk
      simp [AList.lookup_insert]
    · simp [AList.lookup_insert_ne hk, hk]
  · simp [hb]

theorem lookup_side_erase (p : PendingPool α) (b b' : Bool) (k k' : OrderPriorityData) :
    ((p.setSide b ((p.side b).erase k)).side b').lookup k' =
      if b' = b ∧ k' = k then none else (p.side b').lookup k' := by
  rw [side_setSide]
  by_cases hb : b' = b
  · subst hb
    by_cases hk : k' = k
    · subst hk
      simp [AList.lookup_erase]
    · simp [AList.lookup_erase_ne hk, hk]
  · simp [hb]

theorem addOrder_eq (p : PendingPool α) (order : OrderWithStorageData α) :
    p.addOrder order =
      { p.setSide order.isBid ((p.side order.isBid).insert order.priorityData order.orderId.hash) with
        orders := p.orders.insert order.orderId.hash order } := by
  unfold addOrder setSide side
  cases order.isBid <;> rfl

theorem removeOrder_eq (p : PendingPool α) (id : B256) :
    p.removeOrder id =
      match p.orders.lookup id with
      | none => (none, p)
      | some order =>
        match (p.side order.isBid).lookup order.priorityData with
        | none => (none, { p with orders := p.orders.erase id })
        | some _ => (some order, { p.setSide order.isBid
            ((p.side order.isBid).erase order.priorityData) with orders := p.orders.erase id }) := by
  unfold removeOrder setSide side
  cases p.orders.lookup id with
  | none => rfl
  | some order =>
    cases order.isBid
    · dsimp only
      split <;> rfl
    · dsimp only
      split <;> rfl

theorem searcherRemoveOrder_eq (p : PendingPool α) (id : B256) :
    p.searcherRemoveOrder id =
      match p.orders.lookup id with
      | none => (none, p)
      | some order => (some order, { p.setSide order.isBid
          ((p.side order.isBid).erase order.priorityData) with orders := p.orders.erase id }) := by
  unfold searcherRemoveOrder setSide side
  cases p.orders.lookup id with
  | none => rfl
  | some order =>
    dsimp only
    cases order.isBid <;> rfl

theorem searcherRemoveOrder_fst (p : PendingPool α) (id : B256) :
    (p.searcherRemoveOrder id).1 = p.getOrder id := by
  rw [searcherRemoveOrder_eq, getOrder]
  cases p.orders.lookup id <;> rfl

theorem removeOrder_lookup (p : PendingPool α) (id h : B256) :
    (p.removeOrder id).2.orders.lookup h = if h = id then none else p.orders.lookup h := by
  rw [removeOrder_eq]
  cases hl : p.orders.lookup id with
  | none =>
    split_ifs with hh
    · rw [hh, hl]
    · rfl
  | some order =>
    dsimp only
    split <;> exact AList.lookup_erase_eq_ite _ _ _

theorem searcherRemoveOrder_lookup (p : PendingPool α) (id h : B256) :
    (p.searcherRemoveOrder id).2.orders.lookup h = if h = id then none else p.orders.lookup h := by
  rw [searcherRemoveOrder_eq]
  cases hl : p.orders.lookup id with
  | none =>
    split_ifs with hh
    · rw [hh, hl]
    · rfl
  | some order => exact AList.lookup_erase_eq_ite _ _ _

@[simp] theorem cancelOrder_orders (p : PendingPool α) (id : B256) :
    (p.cancelOrder id).2.orders = (cancelIn p.orders id).2 := rfl

@[simp] theorem cancelOrder_side (p : PendingPool α) (id : B256) (b : Bool) :
    (p.cancelOrder id).2.side b = p.side b := rfl

/-! ## The index in sync with the orders -/

/-- Every stored order has the entry of its priority on its side, mapping to its hash, and every
entry is that of a stored order. -/
structure Synced (p : PendingPool α) : Prop where
  hash_eq : ∀ h o, p.orders.lookup h = some o → o.orderId.hash = h
  indexed : ∀ h o, p.orders.lookup h = some o → (p.side o.isBid).lookup o.priorityData = some h
  stored : ∀ b k h, (p.side b).lookup k = some h →
    ∃ o, p.orders.lookup h = some o ∧ o.isBid = b ∧ o.priorityData = k

theorem synced_new : Synced (new : PendingPool α) where
  hash_eq h o hl := by simp [new] at hl
  indexed h o hl := by simp [new] at hl
  stored b k h hl := by cases b <;> simp [new, side] at hl

theorem Synced.eq_of_entry {p : PendingPool α} (hs : Synced p) {h h' : B256}
    {o o' : OrderWithStorageData α} (ho : p.orders.lookup h = some o)
    (ho' : p.orders.lookup h' = some o') (hbid : o'.isBid = o.isBid)
    (hprio : o'.priorityData = o.priorityData) : h' = h := by
  have e := hs.indexed h o ho
  have e' := hs.indexed h' o' ho'
  rw [hbid, hprio, e] at e'
  exact (Option.some.inj e').symm

theorem Synced.addOrder {p : PendingPool α} (hs : Synced p) {order : OrderWithStorageData α}
    (hfresh : p.orders.lookup order.orderId.hash = none)
    (hfree : (p.side order.isBid).lookup order.priorityData = none) : Synced (p.addOrder order) := by
  rw [addOrder_eq]
  constructor
  · intro h o hl
    simp only at hl
    by_cases hh : h = order.orderId.hash
    · subst hh
      rw [AList.lookup_insert] at hl
      cases hl
      rfl
    · rw [AList.lookup_insert_ne hh] at hl
      exact hs.hash_eq h o hl
  · intro h o hl
    simp only [side_orders, lookup_side_insert] at hl ⊢
    by_cases hh : h = order.orderId.hash
    · subst hh
      rw [AList.lookup_insert] at hl
      cases hl
      simp
    · rw [AList.lookup_insert_ne hh] at hl
      have hold := hs.indexed h o hl
      rw [if_neg]
      · exact hold
      · rintro ⟨hb, hp⟩
        rw [hb, hp, hfree] at hold
        cases hold
  · intro b k h hl
    simp only [side_orders, lookup_side_insert] at hl ⊢
    split_ifs at hl with hc
    · -- the new entry, of the new order
      obtain ⟨rfl, rfl⟩ := hc
      cases hl
      exact ⟨order, AList.lookup_insert _, rfl, rfl⟩
    · obtain ⟨o, ho, hb, hk⟩ := hs.stored b k h hl
      have hne : h ≠ order.orderId.hash := fun he => by rw [he, hfresh] at ho; cases ho
      exact ⟨o, by rw [AList.lookup_insert_ne hne]; exact ho, hb, hk⟩

theorem Synced.cancelOrder {p : PendingPool α} (hs : Synced p) (id : B256) :
    Synced (p.cancelOrder id).2 where
  hash_eq h o ho := by
    obtain ⟨o₀, h₀, rfl⟩ := Option.map_eq_some_iff.1 ((lookup_cancelIn p.orders id h).symm.trans ho)
    split <;> exact hs.hash_eq h o₀ h₀
  indexed h o ho := by
    obtain ⟨o₀, h₀, rfl⟩ := Option.map_eq_some_iff.1 ((lookup_cancelIn p.orders id h).symm.trans ho)
    rw [cancelOrder_side]
    by_cases hh : h = id
    · rw [if_pos hh]
      exact hs.indexed h o₀ h₀
    · rw [if_neg hh]
      exact hs.indexed h o₀ h₀
  stored b k h hk := by
    obtain ⟨o, ho, hb, hp⟩ := hs.stored b k h (by rwa [cancelOrder_side] at hk)
    refine ⟨if h = id then { o with cancelRequested := true } else o, ?_, ?_, ?_⟩
    · rw [cancelOrder_orders, lookup_cancelIn, ho]
      rfl
    · split <;> exact hb
    · split <;> exact hp

theorem Synced.removeOrder {p : PendingPool α} (hs : Synced p) (id : B256) :
    (p.removeOrder id).1 = p.getOrder id ∧ Synced (p.removeOrder id).2 := by
  rw [removeOrder_eq, getOrder]
  cases hl : p.orders.lookup id with
  | none => exact ⟨rfl, hs⟩
  | some order =>
    have he := hs.indexed id order hl
    simp only [he, true_and]
    constructor
    · intro h o ho
      simp only at ho
      have hne : h ≠ id := fun hh => by rw [hh, AList.lookup_erase] at ho; cases ho
      rw [AList.lookup_erase_ne hne] at ho
      exact hs.hash_eq h o ho
    · intro h o ho
      simp only [side_orders, lookup_side_erase] at ho ⊢
      have hne : h ≠ id := fun hh => by rw [hh, AList.lookup_erase] at ho; cases ho
      rw [AList.lookup_erase_ne hne] at ho
      rw [if_neg fun hc => hne (hs.eq_of_entry hl ho hc.1 hc.2)]
      exact hs.indexed h o ho
    · intro b k h hk
      simp only [side_orders, lookup_side_erase] at hk ⊢
      split_ifs at hk with hc
      obtain ⟨o, ho, hob, hop⟩ := hs.stored b k h hk
      have hne : h ≠ id := fun hh => by
        rw [hh, hl] at ho
        cases ho
        exact hc ⟨hob.symm, hop.symm⟩
      exact ⟨o, by rw [AList.lookup_erase_ne hne]; exact ho, hob, hop⟩

theorem Synced.searcherRemoveOrder_eq_removeOrder {p : PendingPool α} (hs : Synced p) (id : B256) :
    p.searcherRemoveOrder id = p.removeOrder id := by
  rw [searcherRemoveOrder_eq, removeOrder_eq]
  cases hl : p.orders.lookup id with
  | none => rfl
  | some order => simp only [hs.indexed id order hl]

/-- In sync, the limit pool's `remove_all_cancelled_orders` returns the stored marked orders,
leaves exactly the unmarked ones, and keeps the index in sync. -/
theorem Synced.removeAllCancelledOrders {p : PendingPool α} (hs : Synced p) :
    p.removeAllCancelledOrders.1 = (cancelledIds p.orders).filterMap (fun h => p.orders.lookup h) ∧
      Synced p.removeAllCancelledOrders.2 ∧
      ∀ h, p.removeAllCancelledOrders.2.orders.lookup h =
        (p.orders.lookup h).filter fun o => !o.cancelRequested :=
  removeAllCancelledOrdersWith_spec PendingPool.orders PendingPool.removeOrder Synced
    removeOrder_lookup (fun _ id hq => (hq.removeOrder id).1) (fun _ id hq => (hq.removeOrder id).2)
    p hs

theorem Synced.searcherRemoveAllCancelledOrders {p : PendingPool α} (hs : Synced p) :
    p.searcherRemoveAllCancelledOrders.1 =
        (cancelledIds p.orders).filterMap (fun h => p.orders.lookup h) ∧
      Synced p.searcherRemoveAllCancelledOrders.2 ∧
      ∀ h, p.searcherRemoveAllCancelledOrders.2.orders.lookup h =
        (p.orders.lookup h).filter fun o => !o.cancelRequested :=
  removeAllCancelledOrdersWith_spec PendingPool.orders PendingPool.searcherRemoveOrder Synced
    searcherRemoveOrder_lookup (fun q id _ => searcherRemoveOrder_fst q id)
    (fun _ id hq => hq.searcherRemoveOrder_eq_removeOrder id ▸ (hq.removeOrder id).2) p hs

/-- `add_order` of an order with the priority of a stored order of its side, under another hash,
breaks the index: the stored order's entry now maps to the new hash. -/
theorem addOrder_not_synced {p : PendingPool α} {order o : OrderWithStorageData α} {h : B256}
    (ho : p.orders.lookup h = some o) (hh : h ≠ order.orderId.hash) (hbid : o.isBid = order.isBid)
    (hprio : o.priorityData = order.priorityData) : ¬Synced (p.addOrder order) := by
  intro hs
  have hstored : (p.addOrder order).orders.lookup h = some o := by
    rw [addOrder_eq]
    exact (AList.lookup_insert_ne hh).trans ho
  have hentry := hs.indexed h o hstored
  rw [addOrder_eq, side_orders, side_setSide, if_pos hbid, hprio, AList.lookup_insert] at hentry
  exact hh (Option.some.inj hentry).symm

end PendingPool

end Angstrom.OrderPool
