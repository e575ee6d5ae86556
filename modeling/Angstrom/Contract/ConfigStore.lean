import Angstrom.Contract.Basic
import Angstrom.Lib.IndexedList

/-!
# The pool config store

`types/ConfigEntry.sol`, `types/ConfigBuffer.sol`, `libraries/PoolConfigStore.sol` and the
store-editing functions of `modules/TopLevelAuth.sol`. The configured pools are a list of entries
(store key, tick spacing, bundle fee) kept in the code of a store contract. Every edit copies the
entries into a memory buffer, changes the buffer and deploys a new store contract from it; a
store is named by its address, which is new at every deployment, so the model numbers the
deployments (`AuthState.configStore`).

A store key is a hash of the ordered asset pair (`StoreKeyLib.keyFromAssetsUnchecked`); the
model takes the key function `keyOf` as a parameter, over any key type.

`configurePool` updates the entry of its key in place or appends one, `removePool` removes the
entry at an index by moving the last entry into its slot (`IndexedList.swapRemove`), and
`batchUpdatePools` sets the bundle fee of the entries it names by index and key. The lemmas
`configurePool_ok`, `removePool_ok` and `batchUpdatePools_ok` say what a call that succeeds did
to the list of keys: `insertNew`, `swapRemove` at an index that held the key, and nothing.
-/

namespace Angstrom.Contract

open IndexedList

/-- `ConfigEntry`, the word `storeKey:u216 ++ tickSpacing:u16 ++ feeInE6:u24`, unpacked. -/
structure ConfigEntry (κ : Type) where
  key : κ
  tickSpacing : Nat
  bundleFee : Nat
  deriving DecidableEq, Repr

/-- The fees `_unlockedFees` records for a store key. -/
structure UnlockedFees where
  unlockedFee : Nat
  protocolUnlockedFee : Nat
  deriving DecidableEq, Repr

namespace ConfigEntryLib

def MIN_TICK_SPACING : Nat := 1
def MAX_TICK_SPACING : Nat := 32767
def MAX_FEE : Nat := 200000

def checkTickSpacing (spacing : Nat) : Except Revert Unit :=
  if spacing < MIN_TICK_SPACING ∨ spacing > MAX_TICK_SPACING then throw .invalidTickSpacing
  else pure ()

def checkBundleFee (fee : Nat) : Except Revert Unit :=
  if fee > MAX_FEE then throw .feeAboveMax else pure ()

variable {κ : Type}

def setTickSpacing (self : ConfigEntry κ) (spacing : Nat) : Except Revert (ConfigEntry κ) := do
  checkTickSpacing spacing
  return { self with tickSpacing := spacing }

def setBundleFee (self : ConfigEntry κ) (fee : Nat) : Except Revert (ConfigEntry κ) := do
  checkBundleFee fee
  return { self with bundleFee := fee }

/-- `ConfigEntryLib.init`: both checks, then the key with the spacing and the fee set. -/
def init (skey : κ) (spacing fee : Nat) : Except Revert (ConfigEntry κ) := do
  checkTickSpacing spacing
  checkBundleFee fee
  let entry ← setTickSpacing ⟨skey, 0, 0⟩ spacing
  setBundleFee entry fee

theorem key_of_setTickSpacing {self e : ConfigEntry κ} {spacing : Nat}
    (h : setTickSpacing self spacing = .ok e) : e.key = self.key := by
  obtain ⟨-, -, h⟩ := Checked.bind_eq_ok.1 h
  cases h
  rfl

theorem key_of_setBundleFee {self e : ConfigEntry κ} {fee : Nat}
    (h : setBundleFee self fee = .ok e) : e.key = self.key := by
  obtain ⟨-, -, h⟩ := Checked.bind_eq_ok.1 h
  cases h
  rfl

theorem key_of_init {skey : κ} {spacing fee : Nat} {e : ConfigEntry κ}
    (h : init skey spacing fee = .ok e) : e.key = skey := by
  obtain ⟨-, -, h⟩ := Checked.bind_eq_ok.1 h
  obtain ⟨-, -, h⟩ := Checked.bind_eq_ok.1 h
  obtain ⟨entry, hentry, h⟩ := Checked.bind_eq_ok.1 h
  rw [key_of_setBundleFee h, key_of_setTickSpacing hentry]

end ConfigEntryLib

def LPFeeLibrary.validate (self : Nat) : Except Revert Unit :=
  if self ≤ 1000000 then pure () else throw (.lpFeeTooLarge self)

/-- `ConfigBuffer`: the entries copied into memory, and the capacity allocated for them. -/
structure ConfigBuffer (κ : Type) where
  entries : List (ConfigEntry κ)
  capacity : Nat

namespace ConfigBuffer

variable {κ : Type} [DecidableEq κ]

def get (self : ConfigBuffer κ) (key : κ) (index : Nat) : Except Revert (ConfigEntry κ) := do
  let entry ← Checked.index self.entries index
  if entry.key ≠ key then throw .entryKeyMismatch
  return entry

/-- `ConfigBufferLib.remove_entry`: the entry at `index` must hold `key`; the last entry is
written over it unless it is the last, and the length drops by one. -/
def removeEntry (self : ConfigBuffer κ) (key : κ) (index : Nat) :
    Except Revert (ConfigBuffer κ) := do
  let entry ← Checked.index self.entries index
  if entry.key ≠ key then throw .entryKeyMismatch
  return { self with entries := swapRemove self.entries index }

def unsafeAdd (self : ConfigBuffer κ) (entry : ConfigEntry κ) : Except Revert (ConfigBuffer κ) :=
  if self.entries.length = self.capacity then throw .insufficientCapacity
  else pure { self with entries := self.entries ++ [entry] }

omit [DecidableEq κ] in
theorem unsafeAdd_ok {self self' : ConfigBuffer κ} {entry : ConfigEntry κ}
    (h : self.unsafeAdd entry = .ok self') : self'.entries = self.entries ++ [entry] := by
  unfold unsafeAdd at h
  split at h
  · cases h
  · cases h; rfl

theorem get_ok {self : ConfigBuffer κ} {key : κ} {index : Nat} {entry : ConfigEntry κ}
    (h : self.get key index = .ok entry) :
    ∃ hi : index < self.entries.length, self.entries[index] = entry ∧ entry.key = key := by
  obtain ⟨entry', hidx, h⟩ := Checked.bind_eq_ok.1 h
  obtain ⟨hi, rfl⟩ := Checked.index_eq_ok.1 hidx
  dsimp only at h
  split at h
  · simp at h
  · rename_i hkey
    simp only [Checked.pure_eq_ok] at h
    subst h
    exact ⟨hi, rfl, not_not.1 hkey⟩

theorem removeEntry_ok {self self' : ConfigBuffer κ} {key : κ} {index : Nat}
    (h : self.removeEntry key index = .ok self') :
    ∃ hi : index < self.entries.length, self.entries[index].key = key ∧
      self'.entries = swapRemove self.entries index := by
  obtain ⟨entry, hidx, h⟩ := Checked.bind_eq_ok.1 h
  obtain ⟨hi, rfl⟩ := Checked.index_eq_ok.1 hidx
  dsimp only at h
  split at h
  · simp at h
  · rename_i hkey
    simp only [Checked.pure_eq_ok] at h
    exact ⟨hi, not_not.1 hkey, by rw [← h]⟩

end ConfigBuffer

/-- The store part of `TopLevelAuth`'s state: the address of the store contract `_configStore`
(numbered by deployment), the entries its code holds, and `_unlockedFees`. -/
structure AuthState (κ : Type) where
  configStore : Nat
  entries : List (ConfigEntry κ)
  unlockedFees : κ → UnlockedFees

/-- `ConfigEntryUpdate`, an update `batchUpdatePools` applies. -/
structure ConfigEntryUpdate (κ : Type) where
  index : Nat
  key : κ
  bundleFee : Nat
  unlockedFee : Nat
  protocolUnlockedFee : Nat

namespace PoolConfigStoreLib

variable {κ : Type} [DecidableEq κ]

/-- `read_to_buffer(extra_capacity)`: the entries, with room for `extra` more. -/
def readToBuffer (self : AuthState κ) (extra : Nat) : ConfigBuffer κ :=
  ⟨self.entries, self.entries.length + extra⟩

/-- `store_from_buffer`: a new store contract holding the buffer's entries. -/
def storeFromBuffer (self : AuthState κ) (buffer : ConfigBuffer κ) : AuthState κ :=
  { self with configStore := self.configStore + 1, entries := buffer.entries }

/-- `PoolConfigStoreLib.get`: the tick spacing and bundle fee of the entry at `index`, reading
past the end as an empty entry and an entry of another key as empty, which reverts. -/
def get (entries : List (ConfigEntry κ)) (key : κ) (index : Nat) : Except Revert (Nat × Nat) :=
  match entries[index]? with
  | some entry => if entry.key = key then pure (entry.tickSpacing, entry.bundleFee)
    else throw .noEntry
  | none => throw .noEntry

end PoolConfigStoreLib

namespace TopLevelAuth

open PoolConfigStoreLib

variable {κ : Type} [DecidableEq κ] (keyOf : Address → Address → κ)

/-- The search loop of `configurePool`: the first entry of `key` gets the new tick spacing and
bundle fee; if there is none, a new entry is appended. -/
def configureEntry (buffer : ConfigBuffer κ) (key : κ) (tickSpacing bundleFee : Nat) :
    Except Revert (ConfigBuffer κ) :=
  match buffer.entries.findIdx? (fun e => e.key == key) with
  | some i => do
    let entry ← Checked.index buffer.entries i
    let entry ← ConfigEntryLib.setTickSpacing entry tickSpacing
    let entry ← ConfigEntryLib.setBundleFee entry bundleFee
    pure { buffer with entries := buffer.entries.set i entry }
  | none => do
    let entry ← ConfigEntryLib.init key tickSpacing bundleFee
    buffer.unsafeAdd entry

/-- `TopLevelAuth.configurePool`, called by the controller: the assets must be ordered; the entry
of their key is updated in place, or a new entry is appended; then the unlocked fees are
recorded and checked. -/
def configurePool (self : AuthState κ) (asset0 asset1 : Address)
    (tickSpacing bundleFee unlockedFee protocolUnlockedFee : Nat) : Except Revert (AuthState κ) := do
  if asset0 ≥ asset1 then throw .assetsUnordered
  let key := keyOf asset0 asset1
  let buffer ← configureEntry (readToBuffer self 1) key tickSpacing bundleFee
  let self := storeFromBuffer self buffer
  let fees : UnlockedFees := ⟨unlockedFee, protocolUnlockedFee⟩
  let self := { self with unlockedFees := Function.update self.unlockedFees key fees }
  LPFeeLibrary.validate protocolUnlockedFee
  LPFeeLibrary.validate unlockedFee
  return self

/-- `TopLevelAuth.removePool`: the caller names the store it read the index from; the entry at
the index must hold the key, and is swap-removed. -/
def removePool (self : AuthState κ) (key : κ) (expectedStore storeIndex : Nat) :
    Except Revert (AuthState κ) := do
  if self.configStore ≠ expectedStore then throw .indexMayHaveChanged
  let buffer ← (readToBuffer self 0).removeEntry key storeIndex
  let self := storeFromBuffer self buffer
  return { self with unlockedFees := Function.update self.unlockedFees key ⟨0, 0⟩ }

def batchUpdateStep (acc : ConfigBuffer κ × AuthState κ) (update : ConfigEntryUpdate κ) :
    Except Revert (ConfigBuffer κ × AuthState κ) := do
  let (buffer, self) := acc
  let entry ← buffer.get update.key update.index
  let entry ← ConfigEntryLib.setBundleFee entry update.bundleFee
  let buffer := { buffer with entries := buffer.entries.set update.index entry }
  LPFeeLibrary.validate update.unlockedFee
  LPFeeLibrary.validate update.protocolUnlockedFee
  let fees : UnlockedFees := ⟨update.unlockedFee, update.protocolUnlockedFee⟩
  let self := { self with unlockedFees := Function.update self.unlockedFees update.key fees }
  return (buffer, self)

/-- `TopLevelAuth.batchUpdatePools`: set the bundle fee of each entry named by index and key. -/
def batchUpdatePools (self : AuthState κ) (expectedStore : Nat)
    (updates : List (ConfigEntryUpdate κ)) : Except Revert (AuthState κ) := do
  if self.configStore ≠ expectedStore then throw .indexMayHaveChanged
  let (buffer, self) ← updates.foldlM batchUpdateStep (readToBuffer self 0, self)
  return storeFromBuffer self buffer

/-! What a successful call does to the store: the lemmas the controller's proofs use. -/

theorem keys_configureEntry {buffer buffer' : ConfigBuffer κ} {key : κ} {ts bf : Nat}
    (h : configureEntry buffer key ts bf = .ok buffer') :
    buffer'.entries.map ConfigEntry.key = insertNew key (buffer.entries.map ConfigEntry.key) := by
  unfold configureEntry at h
  split at h
  · -- the key is present: its first entry is edited in place
    rename_i i hfind
    obtain ⟨entry, hidx, h⟩ := Checked.bind_eq_ok.1 h
    obtain ⟨hi, rfl⟩ := Checked.index_eq_ok.1 hidx
    obtain ⟨entry1, h1, h⟩ := Checked.bind_eq_ok.1 h
    obtain ⟨entry2, h2, h⟩ := Checked.bind_eq_ok.1 h
    cases h
    have hkey : buffer.entries[i].key = key := by
      simpa using (List.findIdx?_eq_some_iff_getElem.1 hfind).2.1
    have hmem : key ∈ buffer.entries.map ConfigEntry.key :=
      List.mem_map.2 ⟨_, List.getElem_mem hi, hkey⟩
    rw [insertNew, if_pos hmem, List.map_set, ConfigEntryLib.key_of_setBundleFee h2,
      ConfigEntryLib.key_of_setTickSpacing h1, ← List.map_set, List.set_getElem_self]
  · -- the key is absent: a new entry is appended
    rename_i hfind
    obtain ⟨entry, hinit, hadd⟩ := Checked.bind_eq_ok.1 h
    have hnot : key ∉ buffer.entries.map ConfigEntry.key := by
      simpa using List.findIdx?_eq_none_iff.1 hfind
    rw [insertNew, if_neg hnot, ConfigBuffer.unsafeAdd_ok hadd, List.map_append,
      List.map_singleton, ConfigEntryLib.key_of_init hinit]

theorem configurePool_ok {self self' : AuthState κ} {asset0 asset1 : Address}
    {tickSpacing bundleFee unlockedFee protocolUnlockedFee : Nat}
    (h : configurePool keyOf self asset0 asset1 tickSpacing bundleFee unlockedFee
      protocolUnlockedFee = .ok self') :
    asset0 < asset1 ∧ self'.configStore = self.configStore + 1 ∧
      self'.entries.map ConfigEntry.key =
        insertNew (keyOf asset0 asset1) (self.entries.map ConfigEntry.key) := by
  unfold configurePool at h
  split at h
  · simp at h
  rename_i hord
  obtain ⟨buffer, hbuf, h⟩ := Checked.bind_eq_ok.1 h
  obtain ⟨-, -, h⟩ := Checked.bind_eq_ok.1 h
  obtain ⟨-, -, h⟩ := Checked.bind_eq_ok.1 h
  cases h
  exact ⟨not_le.1 hord, rfl, keys_configureEntry hbuf⟩

theorem removePool_ok {self self' : AuthState κ} {key : κ} {expectedStore storeIndex : Nat}
    (h : removePool self key expectedStore storeIndex = .ok self') :
    self.configStore = expectedStore ∧ self'.configStore = self.configStore + 1 ∧
      ∃ hi : storeIndex < self.entries.length, self.entries[storeIndex].key = key ∧
        self'.entries = swapRemove self.entries storeIndex := by
  unfold removePool at h
  split at h
  · simp at h
  rename_i hstore
  obtain ⟨buffer, hbuf, h⟩ := Checked.bind_eq_ok.1 h
  cases h
  obtain ⟨hi, hkey, hentries⟩ := ConfigBuffer.removeEntry_ok hbuf
  exact ⟨by simpa using hstore, rfl, hi, hkey, hentries⟩

theorem batchUpdateStep_ok {acc acc' : ConfigBuffer κ × AuthState κ}
    {update : ConfigEntryUpdate κ} (h : batchUpdateStep acc update = .ok acc') :
    acc'.1.entries.map ConfigEntry.key = acc.1.entries.map ConfigEntry.key ∧
      acc'.2.configStore = acc.2.configStore := by
  obtain ⟨buffer, self⟩ := acc
  obtain ⟨entry, hget, h⟩ := Checked.bind_eq_ok.1 h
  obtain ⟨entry', hset, h⟩ := Checked.bind_eq_ok.1 h
  obtain ⟨-, -, h⟩ := Checked.bind_eq_ok.1 h
  obtain ⟨-, -, h⟩ := Checked.bind_eq_ok.1 h
  simp only [Checked.pure_eq_ok] at h
  subst h
  obtain ⟨hi, rfl, -⟩ := ConfigBuffer.get_ok hget
  refine ⟨?_, rfl⟩
  rw [List.map_set, ConfigEntryLib.key_of_setBundleFee hset, ← List.map_set,
    List.set_getElem_self]

theorem foldlM_batchUpdateStep_ok :
    ∀ {updates : List (ConfigEntryUpdate κ)} {acc acc' : ConfigBuffer κ × AuthState κ},
      updates.foldlM batchUpdateStep acc = .ok acc' →
      acc'.1.entries.map ConfigEntry.key = acc.1.entries.map ConfigEntry.key ∧
        acc'.2.configStore = acc.2.configStore
  | [], _, _, h => by
    simp only [List.foldlM_nil, Checked.pure_eq_ok] at h
    subst h
    exact ⟨rfl, rfl⟩
  | update :: updates, acc, acc', h => by
    rw [List.foldlM_cons] at h
    obtain ⟨mid, hstep, hrest⟩ := Checked.bind_eq_ok.1 h
    obtain ⟨hkeys, hstore⟩ := batchUpdateStep_ok hstep
    obtain ⟨hkeys', hstore'⟩ := foldlM_batchUpdateStep_ok hrest
    exact ⟨hkeys'.trans hkeys, hstore'.trans hstore⟩

theorem batchUpdatePools_ok {self self' : AuthState κ} {expectedStore : Nat}
    {updates : List (ConfigEntryUpdate κ)}
    (h : batchUpdatePools self expectedStore updates = .ok self') :
    self.configStore = expectedStore ∧ self'.configStore = self.configStore + 1 ∧
      self'.entries.map ConfigEntry.key = self.entries.map ConfigEntry.key := by
  unfold batchUpdatePools at h
  split at h
  · simp at h
  rename_i hstore
  obtain ⟨acc, hfold, h⟩ := Checked.bind_eq_ok.1 h
  obtain ⟨hkeys, hstore'⟩ := foldlM_batchUpdateStep_ok hfold
  simp only [Checked.pure_eq_ok] at h
  subst h
  exact ⟨by simpa using hstore, by simp [storeFromBuffer, hstore'], hkeys⟩

end TopLevelAuth

end Angstrom.Contract
