import Angstrom.Contract.ConfigStore
import Angstrom.Lib.Transition

/-!
# `ControllerV1` and the pool config store

`periphery/ControllerV1.sol` keeps its own registry of the configured pools, the array `_pools`
of asset pairs and the one-based index map `_poolIndices` from store key to position, and
forwards each edit to the Angstrom contract it controls (`TopLevelAuth`). The registry is meant
to mirror the contract's config store: the pair at position `i` of `_pools` is the pair whose
entry is at index `i` of the store, and `removePool` passes its own index to
`TopLevelAuth.removePool`.

`Chain` is the state of both contracts, `step` runs one call of the controller (a revert leaves
both as they were, as the transaction is rolled back) and returns the events it emitted, and
`system` is the transition system of all runs from deployment.

`Consistent` is the mirror: `_poolIndices` is the index map of the keys of `_pools`, those keys
are the store's keys in order, and every registered pair is ordered. It holds in every
reachable state (`consistent_of_reachable`).

`batchUpdatePools` orders each pair the other way round from `configurePool` and `removePool`
(`asset1 > asset0` swaps), so it derives the key of the reversed pair, which no configured pool
has; `_poolIndices[key] - 1` then underflows for every update.
-/

namespace Angstrom.Periphery

open Contract IndexedList

/-- `ControllerV1.Pool`. -/
structure Pool where
  asset0 : Address
  asset1 : Address
  deriving DecidableEq, Repr

/-- `ControllerV1.PoolUpdate`, an update of `batchUpdatePools`. -/
structure PoolUpdate where
  assetA : Address
  assetB : Address
  bundleFee : Nat
  unlockedFee : Nat
  protocolUnlockedFee : Nat
  deriving DecidableEq, Repr

/-- The pool events of `ControllerV1`. -/
inductive Event where
  | poolConfigured (asset0 asset1 : Address)
      (tickSpacing bundleFee unlockedFee protocolUnlockedFee : Nat)
  | opaqueBatchPoolUpdate
  | poolRemoved (asset0 asset1 : Address) (tickSpacing bundleFee : Nat)
  deriving DecidableEq, Repr

/-- The pool registry of `ControllerV1`: `_pools` and `_poolIndices`. -/
structure ControllerState (κ : Type) where
  pools : List Pool
  poolIndices : κ → Nat

/-- The controller and the Angstrom contract it controls. -/
structure Chain (κ : Type) where
  controller : ControllerState κ
  angstrom : AuthState κ

def MAX_FEE_BPS : Nat := 10000

def sortAssets (asset0 asset1 : Address) : Address × Address :=
  if asset0 > asset1 then (asset1, asset0) else (asset0, asset1)

def poolKeys {κ : Type} (keyOf : Address → Address → κ) (pools : List Pool) : List κ :=
  pools.map fun pool => keyOf pool.asset0 pool.asset1

@[simp] theorem length_poolKeys {κ : Type} (keyOf : Address → Address → κ) (pools : List Pool) :
    (poolKeys keyOf pools).length = pools.length := List.length_map _

namespace ControllerState

variable {κ : Type} [DecidableEq κ] (keyOf : Address → Address → κ)

/-- The registration block of `configurePool`: a pair whose key has no index yet is pushed and
indexed by the new length. -/
def register (c : ControllerState κ) (key : κ) (pool : Pool) : ControllerState κ :=
  if c.poolIndices key = 0 then
    { pools := c.pools ++ [pool],
      poolIndices := Function.update c.poolIndices key (c.pools.length + 1) }
  else c

theorem poolKeys_register {c : ControllerState κ}
    (h : IsIndexMap c.poolIndices (poolKeys keyOf c.pools)) (asset0 asset1 : Address) :
    poolKeys keyOf (c.register (keyOf asset0 asset1) ⟨asset0, asset1⟩).pools =
      insertNew (keyOf asset0 asset1) (poolKeys keyOf c.pools) := by
  unfold register
  split
  · rename_i hk
    rw [insertNew, if_neg ((h.eq_zero_iff _).1 hk)]
    simp [poolKeys]
  · rename_i hk
    rw [insertNew, if_pos (not_not.1 (mt (h.eq_zero_iff _).2 hk))]

theorem mem_register {c : ControllerState κ} {key : κ} {pool p : Pool}
    (h : p ∈ (c.register key pool).pools) : p ∈ c.pools ∨ p = pool := by
  unfold register at h
  split at h
  · simpa using h
  · exact .inl h

theorem isIndexMap_register {c : ControllerState κ}
    (h : IsIndexMap c.poolIndices (poolKeys keyOf c.pools)) (asset0 asset1 : Address) :
    IsIndexMap (c.register (keyOf asset0 asset1) ⟨asset0, asset1⟩).poolIndices
      (poolKeys keyOf (c.register (keyOf asset0 asset1) ⟨asset0, asset1⟩).pools) := by
  rw [poolKeys_register keyOf h]
  have := h.insertNew (keyOf asset0 asset1)
  unfold register
  split <;> simp_all [poolKeys]

/-- The registry part of `removePool`'s `unchecked` block, for a key at `indexPlusOne - 1`: the
last pool moves into the slot and takes the index, the key loses its index, and the array is
popped. The array accesses are still bounds-checked. -/
def unregister (c : ControllerState κ) (key : κ) (indexPlusOne : Nat) :
    Except Revert (ControllerState κ) := do
  let index := indexPlusOne - 1
  let length := c.pools.length
  let c ←
    if indexPlusOne < length then do
      let lastPool ← Checked.index c.pools (length - 1)
      let lastKey := keyOf lastPool.asset0 lastPool.asset1
      -- `index < indexPlusOne < length`: the write `_pools[index] = last_pool` is in bounds
      pure { pools := c.pools.set index lastPool,
             poolIndices := Function.update c.poolIndices lastKey indexPlusOne }
    else pure c
  let c := { c with poolIndices := Function.update c.poolIndices key 0 }
  let pools ← Checked.pop c.pools
  return { c with pools }

theorem unregister_eq (c : ControllerState κ) (key : κ) {i : Nat} (hi : i < c.pools.length) :
    c.unregister keyOf key (i + 1) = .ok
      { pools := swapRemove c.pools i,
        poolIndices := Function.update
          (if i + 1 < c.pools.length then
            Function.update c.poolIndices
              (keyOf c.pools[c.pools.length - 1].asset0 c.pools[c.pools.length - 1].asset1) (i + 1)
          else c.poolIndices) key 0 } := by
  have hne : c.pools ≠ [] := List.ne_nil_of_length_pos (by omega)
  unfold unregister
  by_cases hlt : i + 1 < c.pools.length
  · -- the last pool moves into slot `i`
    have hne' : c.pools.set i c.pools[c.pools.length - 1] ≠ [] := by simpa using hne
    have hlast : c.pools.length - 1 < c.pools.length := by omega
    simp only [hlt, if_true, Nat.add_sub_cancel, Checked.index_of_lt hlast, Checked.ok_bind,
      pure_bind, Checked.pop_of_ne_nil hne', Checked.pure_eq_ok]
    rw [swapRemove_eq c.pools hi]
  · -- the key is the last one: the array is only popped
    have hlast : i = c.pools.length - 1 := by omega
    simp only [hlt, if_false, pure_bind, Checked.pop_of_ne_nil hne, Checked.ok_bind, Checked.pure_eq_ok]
    rw [swapRemove_eq c.pools hi]
    subst hlast
    simp

theorem isIndexMap_unregister {c c' : ControllerState κ}
    (h : IsIndexMap c.poolIndices (poolKeys keyOf c.pools)) {key : κ} {i : Nat}
    (hkey : c.poolIndices key = i + 1) (hc : c.unregister keyOf key (i + 1) = .ok c') :
    c'.pools = swapRemove c.pools i ∧ IsIndexMap c'.poolIndices (poolKeys keyOf c'.pools) := by
  obtain ⟨hi, hki⟩ := (h.eq_succ_iff key i).1 hkey
  have hi' : i < c.pools.length := by simpa using hi
  rw [unregister_eq keyOf c key hi', Except.ok.injEq] at hc
  subst hc
  refine ⟨rfl, ?_⟩
  have hswap := h.swapRemove hi
  rw [hki] at hswap
  simpa only [poolKeys, List.length_map, List.getElem_map, map_swapRemove] using hswap

end ControllerState

namespace ControllerV1

variable {κ : Type} [DecidableEq κ] (keyOf : Address → Address → κ)

/-- `ControllerV1.configurePool`: register the ordered pair if it is new, then configure it. -/
def configurePool (self : Chain κ) (asset0 asset1 : Address)
    (tickSpacing bundleFee unlockedFee protocolUnlockedFee : Nat) :
    Except Revert (Chain κ × List Event) := do
  if bundleFee > MAX_FEE_BPS then throw .feeAboveMax
  if unlockedFee > MAX_FEE_BPS then throw .feeAboveMax
  let (asset0, asset1) := sortAssets asset0 asset1
  let key := keyOf asset0 asset1
  let c := self.controller.register key ⟨asset0, asset1⟩
  let angstrom ← TopLevelAuth.configurePool keyOf self.angstrom asset0 asset1 tickSpacing bundleFee
    unlockedFee protocolUnlockedFee
  return (⟨c, angstrom⟩,
    [.poolConfigured asset0 asset1 tickSpacing bundleFee unlockedFee protocolUnlockedFee])

/-- `ControllerV1.removePool`: unregister the pair, then remove the entry at the controller's
index from the store. -/
def removePool (self : Chain κ) (asset0 asset1 : Address) :
    Except Revert (Chain κ × List Event) := do
  let (asset0, asset1) := sortAssets asset0 asset1
  let key := keyOf asset0 asset1
  let indexPlusOne := self.controller.poolIndices key
  if indexPlusOne = 0 then throw (.nonexistentPool asset0 asset1)
  let index := indexPlusOne - 1
  let c ← self.controller.unregister keyOf key indexPlusOne
  let configStore := self.angstrom.configStore
  let (tickSpacing, bundleFee) ← PoolConfigStoreLib.get self.angstrom.entries key index
  let angstrom ← TopLevelAuth.removePool self.angstrom key configStore index
  return (⟨c, angstrom⟩, [.poolRemoved asset0 asset1 tickSpacing bundleFee])

/-- The entry update `batchUpdatePools` builds from one `PoolUpdate`. The pair is ordered with
`asset1 > asset0`, the opposite of `sortAssets`. -/
def entryUpdate (c : ControllerState κ) (update : PoolUpdate) :
    Except Revert (ConfigEntryUpdate κ) := do
  if update.bundleFee > MAX_FEE_BPS then throw .feeAboveMax
  if update.unlockedFee > MAX_FEE_BPS then throw .feeAboveMax
  let (asset0, asset1) := (update.assetA, update.assetB)
  let (asset0, asset1) := if asset1 > asset0 then (asset1, asset0) else (asset0, asset1)
  let key := keyOf asset0 asset1
  let index ← Checked.sub (c.poolIndices key) 1
  return ⟨index, key, update.bundleFee, update.unlockedFee, update.protocolUnlockedFee⟩

/-- `ControllerV1.batchUpdatePools`: build the entry updates, then pass them to the contract with
the current store. -/
def batchUpdatePools (self : Chain κ) (updates : List PoolUpdate) :
    Except Revert (Chain κ × List Event) := do
  let entryUpdates ← updates.mapM (entryUpdate keyOf self.controller)
  let configStore := self.angstrom.configStore
  let angstrom ← TopLevelAuth.batchUpdatePools self.angstrom configStore entryUpdates
  return ({ self with angstrom }, [.opaqueBatchPoolUpdate])

/-- The pool functions of `ControllerV1`. -/
inductive Call where
  | configurePool (asset0 asset1 : Address)
      (tickSpacing bundleFee unlockedFee protocolUnlockedFee : Nat)
  | removePool (asset0 asset1 : Address)
  | batchUpdatePools (updates : List PoolUpdate)

def step (self : Chain κ) : Call → Except Revert (Chain κ × List Event)
  | .configurePool asset0 asset1 tickSpacing bundleFee unlockedFee protocolUnlockedFee =>
    configurePool keyOf self asset0 asset1 tickSpacing bundleFee unlockedFee protocolUnlockedFee
  | .removePool asset0 asset1 => removePool keyOf self asset0 asset1
  | .batchUpdatePools updates => batchUpdatePools keyOf self updates

def init : Chain κ := ⟨⟨[], fun _ => 0⟩, ⟨0, [], fun _ => ⟨0, 0⟩⟩⟩

def system : Transition.System (Chain κ) Call := Transition.ofExcept (· = init) (step keyOf)

/-! ## The mirror invariant -/

/-- The controller's registry mirrors the store: `_poolIndices` indexes the keys of `_pools`,
which are the store's keys in order, and every registered pair is ordered. -/
structure Consistent (chain : Chain κ) : Prop where
  indexMap : IsIndexMap chain.controller.poolIndices (poolKeys keyOf chain.controller.pools)
  keys : poolKeys keyOf chain.controller.pools = chain.angstrom.entries.map ConfigEntry.key
  ordered : ∀ pool ∈ chain.controller.pools, pool.asset0 < pool.asset1

variable {keyOf} {self self' : Chain κ} {events : List Event}

/-! What a successful call did, for the proofs below and for the node's view of its events. -/

theorem configurePool_ok {asset0 asset1 : Address}
    {tickSpacing bundleFee unlockedFee protocolUnlockedFee : Nat}
    (h : configurePool keyOf self asset0 asset1 tickSpacing bundleFee unlockedFee
      protocolUnlockedFee = .ok (self', events)) :
    ∃ a0 a1, sortAssets asset0 asset1 = (a0, a1) ∧
      TopLevelAuth.configurePool keyOf self.angstrom a0 a1 tickSpacing bundleFee unlockedFee
        protocolUnlockedFee = .ok self'.angstrom ∧
      self'.controller = self.controller.register (keyOf a0 a1) ⟨a0, a1⟩ ∧
      events = [.poolConfigured a0 a1 tickSpacing bundleFee unlockedFee protocolUnlockedFee] := by
  unfold configurePool at h
  split at h
  rename_i a0 a1 hsort
  split at h
  · simp at h
  split at h
  · simp at h
  obtain ⟨angstrom, hauth, h⟩ := Checked.map_eq_ok.1 h
  simp only [Prod.mk.injEq] at h
  obtain ⟨rfl, rfl⟩ := h
  exact ⟨a0, a1, hsort, hauth, rfl, rfl⟩

theorem removePool_ok {asset0 asset1 : Address}
    (h : removePool keyOf self asset0 asset1 = .ok (self', events)) :
    ∃ a0 a1 i tickSpacing bundleFee, sortAssets asset0 asset1 = (a0, a1) ∧
      self.controller.poolIndices (keyOf a0 a1) = i + 1 ∧
      self.controller.unregister keyOf (keyOf a0 a1) (i + 1) = .ok self'.controller ∧
      PoolConfigStoreLib.get self.angstrom.entries (keyOf a0 a1) i = .ok (tickSpacing, bundleFee) ∧
      TopLevelAuth.removePool self.angstrom (keyOf a0 a1) self.angstrom.configStore i =
        .ok self'.angstrom ∧
      events = [.poolRemoved a0 a1 tickSpacing bundleFee] := by
  unfold removePool at h
  split at h
  rename_i a0 a1 hsort
  dsimp only at h
  split at h
  · simp at h
  rename_i hne
  obtain ⟨i, hi⟩ : ∃ i, self.controller.poolIndices (keyOf a0 a1) = i + 1 :=
    ⟨_, (Nat.succ_pred_eq_of_ne_zero hne).symm⟩
  obtain ⟨c, hunreg, h⟩ := Checked.bind_eq_ok.1 h
  rw [hi, Nat.add_sub_cancel] at h
  rw [hi] at hunreg
  obtain ⟨⟨tickSpacing, bundleFee⟩, hget, h⟩ := Checked.bind_eq_ok.1 h
  obtain ⟨angstrom, hauth, h⟩ := Checked.map_eq_ok.1 h
  simp only [Prod.mk.injEq] at h
  obtain ⟨rfl, rfl⟩ := h
  exact ⟨a0, a1, i, tickSpacing, bundleFee, hsort, hi, hunreg, hget, hauth, rfl⟩

theorem consistent_configurePool (hc : Consistent keyOf self) {asset0 asset1 : Address}
    {tickSpacing bundleFee unlockedFee protocolUnlockedFee : Nat}
    (h : configurePool keyOf self asset0 asset1 tickSpacing bundleFee unlockedFee
      protocolUnlockedFee = .ok (self', events)) : Consistent keyOf self' := by
  obtain ⟨a0, a1, -, hauth, hc', -⟩ := configurePool_ok h
  obtain ⟨hlt, -, hkeys⟩ := TopLevelAuth.configurePool_ok keyOf hauth
  refine ⟨?_, ?_, ?_⟩
  · rw [hc']
    exact ControllerState.isIndexMap_register keyOf hc.indexMap a0 a1
  · rw [hc', ControllerState.poolKeys_register keyOf hc.indexMap, hkeys, hc.keys]
  · intro pool hpool
    rw [hc'] at hpool
    rcases ControllerState.mem_register hpool with hpool | rfl
    · exact hc.ordered pool hpool
    · exact hlt

theorem consistent_removePool (hc : Consistent keyOf self) {asset0 asset1 : Address}
    (h : removePool keyOf self asset0 asset1 = .ok (self', events)) : Consistent keyOf self' := by
  obtain ⟨a0, a1, i, -, -, -, hi, hunreg, -, hauth, -⟩ := removePool_ok h
  obtain ⟨hpools, hmap⟩ := ControllerState.isIndexMap_unregister keyOf hc.indexMap hi hunreg
  obtain ⟨-, -, -, -, hentries⟩ := TopLevelAuth.removePool_ok hauth
  refine ⟨hmap, ?_, ?_⟩
  · rw [hpools, hentries, poolKeys, map_swapRemove, ← poolKeys, hc.keys, map_swapRemove]
  · intro pool hpool
    rw [hpools] at hpool
    exact hc.ordered pool (mem_of_mem_swapRemove hpool)

theorem consistent_batchUpdatePools (hc : Consistent keyOf self) {updates : List PoolUpdate}
    (h : batchUpdatePools keyOf self updates = .ok (self', events)) : Consistent keyOf self' := by
  unfold batchUpdatePools at h
  obtain ⟨entryUpdates, -, h⟩ := Checked.bind_eq_ok.1 h
  obtain ⟨angstrom, hauth, h⟩ := Checked.map_eq_ok.1 h
  simp only [Prod.mk.injEq] at h
  obtain ⟨rfl, -⟩ := h
  obtain ⟨-, -, hkeys⟩ := TopLevelAuth.batchUpdatePools_ok hauth
  exact ⟨hc.indexMap, hc.keys.trans hkeys.symm, hc.ordered⟩

theorem consistent_step (hc : Consistent keyOf self) {call : Call}
    (h : step keyOf self call = .ok (self', events)) : Consistent keyOf self' := by
  cases call with
  | configurePool => exact consistent_configurePool hc h
  | removePool => exact consistent_removePool hc h
  | batchUpdatePools => exact consistent_batchUpdatePools hc h

omit [DecidableEq κ] in
theorem consistent_init : Consistent keyOf init :=
  ⟨isIndexMap_nil, rfl, fun _ h => absurd h List.not_mem_nil⟩

theorem consistent_of_reachable (hs : Transition.Reachable (system keyOf) self) :
    Consistent keyOf self := by
  refine Transition.Invariant.reachable ?_ hs
  refine Transition.ofExcept_invariant ?_ ?_
  · rintro s rfl
    exact consistent_init
  · intro s call s' events hc h
    exact consistent_step hc h

omit [DecidableEq κ] in
theorem poolIndices_descending (hinj : Function.Injective2 keyOf) (hc : Consistent keyOf self)
    {asset0 asset1 : Address} (h : asset1 ≤ asset0) :
    self.controller.poolIndices (keyOf asset0 asset1) = 0 := by
  apply hc.indexMap.absent
  intro hmem
  obtain ⟨pool, hpool, heq⟩ := List.mem_map.1 hmem
  obtain ⟨h0, h1⟩ := hinj heq
  have hlt := hc.ordered pool hpool
  rw [h0, h1] at hlt
  exact absurd hlt (not_lt.2 h)

omit [DecidableEq κ] in
theorem entryUpdate_eq (hinj : Function.Injective2 keyOf) (hc : Consistent keyOf self)
    (update : PoolUpdate) :
    entryUpdate keyOf self.controller update =
      .error (if update.bundleFee > MAX_FEE_BPS ∨ update.unlockedFee > MAX_FEE_BPS then .feeAboveMax
        else overflow) := by
  unfold entryUpdate
  by_cases hb : update.bundleFee > MAX_FEE_BPS
  · simp [hb]; rfl
  by_cases hu : update.unlockedFee > MAX_FEE_BPS
  · simp [hb, hu]; rfl
  simp only [hb, hu, if_false, or_self]
  -- the pair is put in descending order, whose key no registered pool has
  split
  · rename_i hgt
    dsimp only
    rw [poolIndices_descending hinj hc (le_of_lt hgt), Checked.sub_of_lt Nat.zero_lt_one]
    rfl
  · rename_i hle
    dsimp only
    rw [poolIndices_descending hinj hc (not_lt.1 hle), Checked.sub_of_lt Nat.zero_lt_one]
    rfl

/-- Every nonempty `batchUpdatePools` reverts in every reachable state: with `FeeAboveMax` if
the first update's fees are out of range, else with the underflow of its index. -/
theorem batchUpdatePools_reverts (hinj : Function.Injective2 keyOf)
    (hs : Transition.Reachable (system keyOf) self) (update : PoolUpdate)
    (updates : List PoolUpdate) :
    batchUpdatePools keyOf self (update :: updates) =
      .error (if update.bundleFee > MAX_FEE_BPS ∨ update.unlockedFee > MAX_FEE_BPS then .feeAboveMax
        else overflow) := by
  unfold batchUpdatePools
  rw [List.mapM_cons, entryUpdate_eq hinj (consistent_of_reachable hs) update]
  rfl

/-- The state after configuring the pair `(1, 2)` once, with the pairs themselves as keys. -/
def configuredChain : Chain (Address × Address) :=
  ⟨⟨[⟨1, 2⟩], Function.update (fun _ => 0) (1, 2) 1⟩,
    ⟨1, [⟨(1, 2), 60, 100⟩], Function.update (fun _ => ⟨0, 0⟩) (1, 2) ⟨0, 0⟩⟩⟩

theorem configuredChain_reachable : Transition.Reachable (system Prod.mk) configuredChain := by
  have hstep : (system Prod.mk).step init (.configurePool 1 2 60 100 0 0) configuredChain :=
    Or.inl ⟨[.poolConfigured 1 2 60 100 0 0], rfl⟩
  exact .step (.init rfl) hstep

theorem batchUpdatePools_reverts_configured :
    batchUpdatePools Prod.mk configuredChain [⟨1, 2, 100, 0, 0⟩] = .error overflow :=
  batchUpdatePools_reverts (fun _ _ _ _ => Prod.mk.inj) configuredChain_reachable _ []

end ControllerV1

end Angstrom.Periphery
