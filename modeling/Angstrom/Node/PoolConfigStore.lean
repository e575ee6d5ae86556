import Angstrom.Periphery.ControllerV1
import Angstrom.Lib.AListMap

/-!
# The node's mirror of the pool config store

`AngstromPoolConfigStore` (`crates/types/src/contract_payloads/angstrom/mod.rs`) is the node's
copy of the contract's config store: a map from store key to an entry that records the entry's
index in the store (`store_index`), which the node writes into the pairs of its bundles. It is
decoded from the store contract's code (`try_from`), one entry per index, and then kept up to
date from the controller's events (`EthDataCleanser::apply_periphery_logs`, `crates/eth/src/manager.rs`):
a `PoolConfigured` event inserts an entry whose index is the current number of entries
(`new_pool`), and a `PoolRemoved` event removes the pair's entry and moves every later index down
by one (`remove_pair`).

The store key is the same function of the ordered pair on both sides (`derive_store_key` takes
the low 27 bytes of the same hash as `StoreKeyLib.keyFromAssetsUnchecked`), so the model passes
one `keyOf` to both. The map is Mathlib's `AList`, whose keys are duplicate-free like those of
the `DashMap` it models; the byte framing of `try_from` (the leading zero byte and the 32-byte
chunks) is left out, and it starts from the decoded entries.

`Mirror store entries` says that the node's indices are the contract's: `store_index + 1` is the
one-based index map of the contract's keys. `try_from` establishes it (`mirror_tryFrom`).
-/

namespace Angstrom.Node

open Contract Periphery IndexedList

/-- `AngPoolConfigEntry`. -/
structure AngPoolConfigEntry (κ : Type) where
  poolPartialKey : κ
  tickSpacing : Nat
  feeInE6 : Nat
  storeIndex : Nat
  deriving DecidableEq, Repr

/-- `AngstromPoolConfigStore`: the `DashMap` from store key to entry. -/
structure AngstromPoolConfigStore (κ : Type) where
  entries : AList fun _ : κ => AngPoolConfigEntry κ

namespace AngstromPoolConfigStore

variable {κ : Type} [DecidableEq κ] (keyOf : Address → Address → κ)

def length (self : AngstromPoolConfigStore κ) : Nat := self.entries.entries.length

/-- `remove_pair`: remove the pair's entry, if any, and move every later index down by one. -/
def removePair (self : AngstromPoolConfigStore κ) (asset0 asset1 : Address) :
    AngstromPoolConfigStore κ :=
  let key := keyOf asset0 asset1
  match self.entries.lookup key with
  | none => self
  | some entry =>
    let index := entry.storeIndex
    ⟨(self.entries.erase key).mapValues fun _ v =>
      if v.storeIndex > index then { v with storeIndex := v.storeIndex - 1 } else v⟩

/-- `new_pool`: insert the entry under the pair's key, replacing any entry it had. -/
def newPool (self : AngstromPoolConfigStore κ) (asset0 asset1 : Address)
    (pool : AngPoolConfigEntry κ) : AngstromPoolConfigStore κ :=
  ⟨self.entries.insert (keyOf asset0 asset1) pool⟩

/-- `try_from`: one entry per decoded store entry, recording its position. -/
def tryFrom (entries : List (ConfigEntry κ)) : AngstromPoolConfigStore κ :=
  ⟨entries.zipIdx.foldl (fun m (entry, index) =>
    m.insert entry.key ⟨entry.key, entry.tickSpacing, entry.bundleFee, index⟩) ∅⟩

/-- The pool-store part of `apply_periphery_logs` for one event of the controller. -/
def applyLog (self : AngstromPoolConfigStore κ) : Event → AngstromPoolConfigStore κ
  | .poolRemoved asset0 asset1 _ _ => self.removePair keyOf asset0 asset1
  | .poolConfigured asset0 asset1 tickSpacing bundleFee _ _ =>
    let entry : AngPoolConfigEntry κ := ⟨keyOf asset0 asset1, tickSpacing, bundleFee, self.length⟩
    self.newPool keyOf asset0 asset1 entry
  | .opaqueBatchPoolUpdate => self

/-- `apply_periphery_logs` on the events of a successful transaction, in order. -/
def applyPeripheryLogs (self : AngstromPoolConfigStore κ) (logs : List Event) :
    AngstromPoolConfigStore κ :=
  logs.foldl (applyLog keyOf) self

/-- The one-based index the node records for a key, `0` for a key it does not hold. -/
def indexMap (self : AngstromPoolConfigStore κ) (k : κ) : Nat :=
  match self.entries.lookup k with
  | some entry => entry.storeIndex + 1
  | none => 0

def Mirror (self : AngstromPoolConfigStore κ) (entries : List (ConfigEntry κ)) : Prop :=
  IsIndexMap self.indexMap (entries.map ConfigEntry.key)

/-! ## What each operation does to the index map -/

theorem indexMap_eq_zero_iff (self : AngstromPoolConfigStore κ) (k : κ) :
    self.indexMap k = 0 ↔ k ∉ self.entries := by
  rw [← AList.lookup_eq_none]
  unfold indexMap
  cases self.entries.lookup k <;> simp

theorem lookup_of_indexMap_eq_succ (self : AngstromPoolConfigStore κ) {k : κ} {j : Nat}
    (h : self.indexMap k = j + 1) : ∃ entry, self.entries.lookup k = some entry ∧ entry.storeIndex = j := by
  unfold indexMap at h
  split at h
  · rename_i entry hlook
    exact ⟨entry, hlook, by omega⟩
  · omega

theorem indexMap_insert (self : AngstromPoolConfigStore κ) (k : κ) (entry : AngPoolConfigEntry κ) :
    (⟨self.entries.insert k entry⟩ : AngstromPoolConfigStore κ).indexMap =
      Function.update self.indexMap k (entry.storeIndex + 1) := by
  funext k'
  by_cases hk : k' = k
  · subst hk
    simp [indexMap, AList.lookup_insert]
  · simp [indexMap, AList.lookup_insert_ne hk, Function.update_of_ne hk]

theorem indexMap_newPool (self : AngstromPoolConfigStore κ) (asset0 asset1 : Address)
    (pool : AngPoolConfigEntry κ) :
    (self.newPool keyOf asset0 asset1 pool).indexMap =
      Function.update self.indexMap (keyOf asset0 asset1) (pool.storeIndex + 1) :=
  indexMap_insert self _ pool

theorem indexMap_removePair (self : AngstromPoolConfigStore κ) {asset0 asset1 : Address}
    {entry : AngPoolConfigEntry κ} (h : self.entries.lookup (keyOf asset0 asset1) = some entry) :
    (self.removePair keyOf asset0 asset1).indexMap =
      Function.update (fun k => if self.indexMap k > entry.storeIndex + 1 then self.indexMap k - 1
        else self.indexMap k) (keyOf asset0 asset1) 0 := by
  funext k
  by_cases hk : k = keyOf asset0 asset1
  · subst hk
    simp [indexMap, removePair, h, AList.lookup_erase]
  rw [Function.update_of_ne hk]
  have hlook : (self.removePair keyOf asset0 asset1).entries.lookup k =
      (self.entries.lookup k).map fun v =>
        if v.storeIndex > entry.storeIndex then { v with storeIndex := v.storeIndex - 1 } else v := by
    simp [removePair, h, AList.lookup_erase_ne hk]
  unfold indexMap at *
  rw [hlook]
  split_ifs with hgt
  all_goals
    revert hgt
    rcases self.entries.lookup k with _ | v
    · simp
    · simp only [Option.map_some, apply_ite AngPoolConfigEntry.storeIndex]
      split <;> omega

theorem length_of_mirror {self : AngstromPoolConfigStore κ} {entries : List (ConfigEntry κ)}
    (h : self.Mirror entries) : self.length = entries.length := by
  have hperm : self.entries.keys.Perm (entries.map ConfigEntry.key) := by
    rw [List.perm_ext_iff_of_nodup self.entries.keys_nodup h.nodup]
    intro k
    rw [← AList.mem_keys, ← not_iff_not, ← indexMap_eq_zero_iff, h.eq_zero_iff]
  simpa [length, AList.keys, List.keys] using hperm.length_eq

theorem tryFrom_append (entries : List (ConfigEntry κ)) (entry : ConfigEntry κ) :
    tryFrom (entries ++ [entry]) =
      ⟨(tryFrom entries).entries.insert entry.key
        ⟨entry.key, entry.tickSpacing, entry.bundleFee, entries.length⟩⟩ := by
  simp [tryFrom, List.zipIdx_append, List.foldl_append]

theorem mirror_tryFrom {entries : List (ConfigEntry κ)} (hnd : (entries.map ConfigEntry.key).Nodup) :
    (tryFrom entries).Mirror entries := by
  induction entries using List.reverseRecOn with
  | nil => exact isIndexMap_nil
  | append_singleton entries entry ih =>
    rw [List.map_append, List.nodup_append] at hnd
    have hmirror := ih hnd.1
    have hfresh : (tryFrom entries).indexMap entry.key = 0 := by
      apply hmirror.absent
      intro hmem
      exact hnd.2.2 _ hmem _ (List.mem_map_of_mem List.mem_cons_self) rfl
    have hpush := hmirror.push hfresh
    rw [List.length_map] at hpush
    unfold Mirror
    rw [tryFrom_append, indexMap_insert, List.map_append, List.map_singleton]
    exact hpush

end AngstromPoolConfigStore

end Angstrom.Node
