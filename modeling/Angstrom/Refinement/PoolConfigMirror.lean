import Angstrom.Node.PoolConfigStore

/-!
# Does the node's store index follow the contract's?

The node writes `store_index` into every pair of its bundles, and the contract reads the config
entry at that index (`PoolConfigStoreLib.get`, which reverts on another key). The node's
`AngstromPoolConfigStore` is decoded from the store with every entry at its position
(`mirror_tryFrom`) and then follows the controller's events. Against the contract's edits:

* configuring a new pair keeps the mirror (`mirror_configurePool_new`);
* configuring a pair that is already configured breaks it: the contract edits the entry in place,
  while `new_pool` inserts it with `store_index` equal to the number of entries, one past the last
  index (`configurePool_existing_diverges`; from deployment, configuring one pair twice,
  `configurePool_existing_diverges_twice`);
* removing a pair keeps the mirror exactly when its entry is one of the last two
  (`mirror_removePool_iff`): the contract swap-removes (`ConfigBufferLib.remove_entry`), while
  `remove_pair` moves every later index down by one, which is erasing
  (`IndexedList.eraseIdx_eq_swapRemove_iff`).
-/

namespace Angstrom.Refinement
open Contract Periphery Node IndexedList AngstromPoolConfigStore

variable {κ : Type} [DecidableEq κ] {keyOf : Address → Address → κ}
  {chain chain' : Chain κ} {store : AngstromPoolConfigStore κ} {events : List Event}

theorem indexMap_configured (hmirror : store.Mirror chain.angstrom.entries) (a0 a1 : Address)
    (tickSpacing bundleFee unlockedFee protocolUnlockedFee : Nat) :
    (store.applyPeripheryLogs keyOf
        [.poolConfigured a0 a1 tickSpacing bundleFee unlockedFee protocolUnlockedFee]).indexMap =
      Function.update store.indexMap (keyOf a0 a1) (chain.angstrom.entries.length + 1) := by
  simp only [applyPeripheryLogs, List.foldl_cons, List.foldl_nil, applyLog]
  rw [indexMap_newPool, length_of_mirror hmirror]

theorem mirror_configurePool_new {asset0 asset1 : Address}
    {tickSpacing bundleFee unlockedFee protocolUnlockedFee : Nat}
    (hmirror : store.Mirror chain.angstrom.entries)
    (hcall : ControllerV1.configurePool keyOf chain asset0 asset1 tickSpacing bundleFee unlockedFee
      protocolUnlockedFee = .ok (chain', events))
    (hnew : keyOf (sortAssets asset0 asset1).1 (sortAssets asset0 asset1).2 ∉
      chain.angstrom.entries.map ConfigEntry.key) :
    (store.applyPeripheryLogs keyOf events).Mirror chain'.angstrom.entries := by
  obtain ⟨a0, a1, hsort, hauth, -, rfl⟩ := ControllerV1.configurePool_ok hcall
  rw [hsort] at hnew
  obtain ⟨-, -, hkeys⟩ := TopLevelAuth.configurePool_ok keyOf hauth
  rw [insertNew, if_neg hnew] at hkeys
  have hpush := hmirror.push ((hmirror.eq_zero_iff _).2 hnew)
  rw [List.length_map] at hpush
  unfold Mirror
  rw [indexMap_configured hmirror, hkeys]
  exact hpush

/-- Configuring a pair that is already configured breaks the node's mirror: the contract edits the
entry in place, and the node records the pair at index `length`, one past the last entry. -/
theorem configurePool_existing_diverges {asset0 asset1 : Address}
    {tickSpacing bundleFee unlockedFee protocolUnlockedFee : Nat}
    (hmirror : store.Mirror chain.angstrom.entries)
    (hcall : ControllerV1.configurePool keyOf chain asset0 asset1 tickSpacing bundleFee unlockedFee
      protocolUnlockedFee = .ok (chain', events))
    (hmem : keyOf (sortAssets asset0 asset1).1 (sortAssets asset0 asset1).2 ∈
      chain.angstrom.entries.map ConfigEntry.key) :
    (store.applyPeripheryLogs keyOf events).indexMap
        (keyOf (sortAssets asset0 asset1).1 (sortAssets asset0 asset1).2) =
      chain'.angstrom.entries.length + 1 ∧
    ¬ (store.applyPeripheryLogs keyOf events).Mirror chain'.angstrom.entries := by
  obtain ⟨a0, a1, hsort, hauth, -, rfl⟩ := ControllerV1.configurePool_ok hcall
  rw [hsort] at hmem ⊢
  obtain ⟨-, -, hkeys⟩ := TopLevelAuth.configurePool_ok keyOf hauth
  rw [insertNew, if_pos hmem] at hkeys
  have hlen : chain'.angstrom.entries.length = chain.angstrom.entries.length := by
    simpa using congrArg List.length hkeys
  have hidx : (store.applyPeripheryLogs keyOf
      [.poolConfigured a0 a1 tickSpacing bundleFee unlockedFee protocolUnlockedFee]).indexMap
        (keyOf a0 a1) = chain'.angstrom.entries.length + 1 := by
    rw [indexMap_configured hmirror, Function.update_self, hlen]
  refine ⟨hidx, fun hmirror' => ?_⟩
  unfold Mirror at hmirror'
  rw [hkeys] at hmirror'
  obtain ⟨j, hj, hkj⟩ := List.mem_iff_getElem.1 hmem
  have := hmirror'.getElem j hj
  rw [hkj, hidx, hlen] at this
  simp at hj
  omega

/-- The node's store after deployment and one configuration of the pair `(1, 2)`, with the pairs
themselves as keys. -/
def configuredStore : AngstromPoolConfigStore (Address × Address) :=
  (tryFrom []).applyPeripheryLogs Prod.mk [.poolConfigured 1 2 60 100 0 0]

theorem configuredStore_mirror :
    configuredStore.Mirror ControllerV1.configuredChain.angstrom.entries := by
  have hcall : ControllerV1.configurePool Prod.mk ControllerV1.init 1 2 60 100 0 0 =
      .ok (ControllerV1.configuredChain, [.poolConfigured 1 2 60 100 0 0]) := rfl
  have hstart : (tryFrom ([] : List (ConfigEntry (Address × Address)))).Mirror [] :=
    mirror_tryFrom List.nodup_nil
  exact mirror_configurePool_new hstart hcall (by decide)

/-- Configuring `(1, 2)` a second time: the node records it at index 1, the contract keeps its
only entry at index 0. -/
theorem configurePool_existing_diverges_twice :
    (configuredStore.applyPeripheryLogs Prod.mk [.poolConfigured 1 2 60 100 0 0]).indexMap (1, 2) =
        2 ∧
      ¬ (configuredStore.applyPeripheryLogs Prod.mk [.poolConfigured 1 2 60 100 0 0]).Mirror
        [⟨(1, 2), 60, 100⟩] :=
  @configurePool_existing_diverges _ _ Prod.mk ControllerV1.configuredChain _ configuredStore _ 1 2 60
    100 0 0 configuredStore_mirror rfl (by decide)

/-- Removing a pair keeps the node's mirror exactly when its entry is one of the last two: the
contract moves the last entry into the slot, the node moves every later entry down by one. -/
theorem mirror_removePool_iff {asset0 asset1 : Address}
    (hmirror : store.Mirror chain.angstrom.entries)
    (hcall : ControllerV1.removePool keyOf chain asset0 asset1 = .ok (chain', events)) :
    (store.applyPeripheryLogs keyOf events).Mirror chain'.angstrom.entries ↔
      chain.angstrom.entries.length ≤
        chain.controller.poolIndices (keyOf (sortAssets asset0 asset1).1 (sortAssets asset0 asset1).2)
          + 1 := by
  obtain ⟨a0, a1, i, tickSpacing, bundleFee, hsort, hi, -, -, hauth, rfl⟩ :=
    ControllerV1.removePool_ok hcall
  rw [hsort, hi]
  obtain ⟨-, -, hlt, hkey, hentries⟩ := TopLevelAuth.removePool_ok hauth
  have hlt' : i < (chain.angstrom.entries.map ConfigEntry.key).length := by simpa using hlt
  have hkey' : (chain.angstrom.entries.map ConfigEntry.key)[i] = keyOf a0 a1 := by simpa using hkey
  obtain ⟨entry, hlook, hindex⟩ := store.lookup_of_indexMap_eq_succ
    (hkey' ▸ hmirror.getElem i hlt')
  have herase := hmirror.eraseIdx hlt'
  rw [hkey'] at herase
  have hlog : store.applyPeripheryLogs keyOf [.poolRemoved a0 a1 tickSpacing bundleFee] =
      store.removePair keyOf a0 a1 := rfl
  unfold Mirror
  rw [hlog, indexMap_removePair keyOf store hlook, hindex, hentries, map_swapRemove]
  constructor
  · intro hswap
    have heq := herase.unique hswap
    rw [eraseIdx_eq_swapRemove_iff hmirror.nodup hlt'] at heq
    simpa using heq
  · intro hle
    rw [← (eraseIdx_eq_swapRemove_iff hmirror.nodup hlt').2 (by simpa using hle)]
    exact herase

end Angstrom.Refinement
