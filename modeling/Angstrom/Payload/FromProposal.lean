import Angstrom.Contract.BundleDecoding
import Angstrom.Lib.IndexedList

/-!
# The asset and pair lists of a bundle built from a proposal

`AngstromBundle::from_proposal` (`contract_payloads/angstrom/mod.rs`) lists the assets and the
pairs of a bundle in two passes over the proposal's solutions. The first adds the two tokens of
each solution's pool to an `AssetArray` (`add_or_get_asset_idx`, in solution order), then sorts
the assets by address and points every address at its new index (`order_assets_properly`). The
second visits the solutions sorted by the key `(t0_idx << 16) | t1_idx` and lets
`process_solution` push one pair per solution; the pair's index, `pairs.len()` before the push,
is the `pair_index` of the solution's pool update and orders. A solution whose pool is not in the
pool map is skipped by both passes.

Only what decides the two lists is modelled. A pair's price is the solution's `ucp` (the
top-of-block swap's end price replaces a zero `ucp`, which the model does not follow), and the
rest of `process_solution` is left out. The Rust sorts are unstable; `insertionSort` by the same
key orders as any sort does when the keys are distinct, and where they are not
(`duplicatePool_rejected`) the tied pairs are equal.

The contract accepts the lists (`AssetLib.validate`, `PairLib.validate`) when the solutions'
pools have distinct token pairs, each in address order and above address zero
(`fromProposal_accepted`). Two solutions of one pool give the same pair twice, which
`PairLib.readFromAndValidate` rejects (`duplicatePool_rejected`).
-/

namespace Angstrom.Payload

open Contract

/-- `AssetArray`, with the addresses only: the amounts are filled in by the asset builder. -/
structure AssetArray where
  assets : List Address
  assetsIdx : Address → Option Nat

namespace AssetArray

def new : AssetArray := ⟨[], fun _ => none⟩

def addOrGetAssetIdx (self : AssetArray) (asset : Address) : AssetArray × Nat :=
  match self.assetsIdx asset with
  | some idx => (self, idx)
  | none =>
    (⟨self.assets ++ [asset], Function.update self.assetsIdx asset (some self.assets.length)⟩,
      self.assets.length)

/-- `order_assets_properly`: sort by address, then point every address at its new index. -/
def orderAssetsProperly (self : AssetArray) : AssetArray :=
  let assets := self.assets.insertionSort (· ≤ ·)
  ⟨assets, assets.zipIdx.foldl (fun idx p => Function.update idx p.1 (some p.2)) self.assetsIdx⟩

@[simp] theorem orderAssetsProperly_assets (self : AssetArray) :
    self.orderAssetsProperly.assets = self.assets.insertionSort (· ≤ ·) := rfl

/-- The index map finds every address of the array at its position, and the array has no
address twice. -/
structure Valid (arr : AssetArray) : Prop where
  nodup : arr.assets.Nodup
  idx : IndexedList.IsPosMap arr.assetsIdx arr.assets

theorem valid_new : new.Valid := ⟨List.nodup_nil, by simp [new, IndexedList.IsPosMap]⟩

variable {self : AssetArray}

theorem Valid.addOrGetAssetIdx_of_mem (h : self.Valid) {a : Address} (ha : a ∈ self.assets) :
    self.addOrGetAssetIdx a = (self, self.assets.idxOf a) := by
  simp only [addOrGetAssetIdx, h.idx.eq_idxOf ha]

theorem Valid.addOrGetAssetIdx (h : self.Valid) (a : Address) :
    (self.addOrGetAssetIdx a).1.Valid ∧
      (∀ b, b ∈ (self.addOrGetAssetIdx a).1.assets ↔ b ∈ self.assets ∨ b = a) ∧
      (self.addOrGetAssetIdx a).1.assets.length ≤ self.assets.length + 1 := by
  by_cases ha : a ∈ self.assets
  · rw [h.addOrGetAssetIdx_of_mem ha]
    exact ⟨h, fun b => ⟨.inl, fun hb => hb.elim id (· ▸ ha)⟩, Nat.le_succ _⟩
  · simp only [AssetArray.addOrGetAssetIdx, h.idx.eq_none ha]
    refine ⟨⟨h.nodup.append (List.nodup_singleton a) (by simpa using ha), h.idx.push ha⟩, ?_, ?_⟩
    · simp
    · simp

theorem Valid.orderAssetsProperly (h : self.Valid) :
    self.orderAssetsProperly.Valid ∧ self.orderAssetsProperly.assets.Pairwise (· < ·) ∧
      self.orderAssetsProperly.assets.Perm self.assets := by
  have hperm := List.perm_insertionSort (· ≤ ·) self.assets
  have hnd : (self.assets.insertionSort (· ≤ ·)).Nodup := hperm.nodup_iff.2 h.nodup
  refine ⟨⟨hnd, ?_⟩, ?_, hperm⟩
  · -- the old map knows only the old addresses, all of which the loop rewrites
    exact IndexedList.isPosMap_foldl_zipIdx hnd fun a ha =>
      h.idx.eq_none fun ha' => ha (hperm.mem_iff.2 ha')
  · -- sorted, and distinct since the sort keeps the addresses
    rw [orderAssetsProperly_assets]
    exact (List.pairwise_insertionSort (· ≤ ·) self.assets).imp₂
      (fun _ _ hle hne => lt_of_le_of_ne hle hne) hnd

end AssetArray

/-- What `from_proposal` takes of a pool in its pool map: the two tokens and the store index. -/
structure PoolEntry where
  t0 : Address
  t1 : Address
  storeIndex : Nat

/-- What the two passes read of a solution: its pool and its clearing price. -/
structure SolutionRef where
  id : Nat
  ucp : Nat

/-- The lists `from_proposal` builds, and the pair index of each solution processed. -/
structure BundleLists where
  assets : List Address
  pairs : List Pair
  pairIndices : List (Nat × Nat)

/-- What the contract's decoders ask of a bundle's asset and pair lists, and what a pool update
or an order asks of the pair index it carries: the pair there is one of its pool's tokens. -/
structure BundleLists.WellFormed (pools : Nat → Option PoolEntry) (b : BundleLists) : Prop where
  assets_sorted : b.assets.Pairwise (· < ·)
  assets_pos : ∀ a ∈ b.assets, 0 < a.val
  assets_fit : b.assets.length ≤ 2 ^ 16
  pairs_sorted : (b.pairs.map fun p => p.index0 * 2 ^ 16 + p.index1).Pairwise (· < ·)
  pairs_inside : ∀ p ∈ b.pairs, p.index0 < p.index1 ∧ p.index1 < b.assets.length
  pairIndices_agree : ∀ r ∈ b.pairIndices, ∃ pool ∈ pools r.1, ∃ p, b.pairs[r.2]? = some p ∧
    b.assets[p.index0]? = some pool.t0 ∧ b.assets[p.index1]? = some pool.t1

section WellFormed

variable {pools : Nat → Option PoolEntry} {b : BundleLists}

theorem BundleLists.WellFormed.assets_accepted (h : b.WellFormed pools) :
    AssetLib.validate b.assets 0 = .ok () := by
  rw [AssetLib.validate_eq_ok_iff, List.pairwise_cons, List.pairwise_map]
  refine ⟨fun x hx => ?_, h.assets_sorted⟩
  obtain ⟨a, ha, rfl⟩ := List.mem_map.1 hx
  exact h.assets_pos a ha

theorem BundleLists.WellFormed.pairs_accepted (h : b.WellFormed pools) :
    PairLib.validate b.assets b.pairs 0 = .ok () := by
  have hfit : ∀ p ∈ b.pairs, p.index1 < 2 ^ 16 := fun p hp => by
    have := (h.pairs_inside p hp).2
    have := h.assets_fit
    omega
  rw [PairLib.validate_eq_ok_iff hfit, List.pairwise_cons]
  refine ⟨⟨fun x hx => ?_, h.pairs_sorted⟩, fun p hp => ?_⟩
  · -- the second index is above the first, so no pair's `u32` is zero
    obtain ⟨p, hp, rfl⟩ := List.mem_map.1 hx
    have := (h.pairs_inside p hp).1
    omega
  · obtain ⟨h01, h1⟩ := h.pairs_inside p hp
    exact ⟨_, _, List.getElem?_eq_getElem (by omega), List.getElem?_eq_getElem h1,
      List.pairwise_iff_getElem.1 h.assets_sorted _ _ _ _ h01⟩

end WellFormed

section FromProposal

variable (pools : Nat → Option PoolEntry)

def addSolutionAssets (builder : AssetArray) (sol : SolutionRef) : AssetArray :=
  match pools sol.id with
  | none => builder
  | some pool => ((builder.addOrGetAssetIdx pool.t0).1.addOrGetAssetIdx pool.t1).1

def assetBuilder (solutions : List SolutionRef) : AssetArray :=
  (solutions.foldl (addSolutionAssets pools) AssetArray.new).orderAssetsProperly

def solutionKey (builder : AssetArray) (sol : SolutionRef) : Nat :=
  match pools sol.id with
  | none => 0
  | some pool => (builder.addOrGetAssetIdx pool.t0).2 <<< 16 ||| (builder.addOrGetAssetIdx pool.t1).2

/-- What `process_solution` does to the lists: push the pair of the solution's pool, with the
token indices as `u16`, and give its index to the solution. -/
def processSolution (builder : AssetArray) (acc : List Pair × List (Nat × Nat))
    (sol : SolutionRef) : List Pair × List (Nat × Nat) :=
  match pools sol.id with
  | none => acc
  | some pool =>
    let t0Idx := (builder.addOrGetAssetIdx pool.t0).2 % 2 ^ 16
    let t1Idx := (builder.addOrGetAssetIdx pool.t1).2 % 2 ^ 16
    let pairIdx := acc.1.length
    (acc.1 ++ [⟨t0Idx, t1Idx, pool.storeIndex, sol.ucp⟩], acc.2 ++ [(sol.id, pairIdx % 2 ^ 16)])

def fromProposal (solutions : List SolutionRef) : BundleLists :=
  let builder := assetBuilder pools solutions
  let sorted := solutions.insertionSort fun a b =>
    solutionKey pools builder a ≤ solutionKey pools builder b
  let (pairs, pairIndices) := sorted.foldl (processSolution pools builder) ([], [])
  ⟨builder.assets, pairs, pairIndices⟩

def tokenPair (sol : SolutionRef) : Option (Address × Address) :=
  (pools sol.id).map fun pool => (pool.t0, pool.t1)

/-- The pair `process_solution` pushes for a solution whose pool is in the map. -/
def solutionPair (builder : AssetArray) (sol : SolutionRef) : Option Pair :=
  (pools sol.id).map fun pool =>
    ⟨(builder.addOrGetAssetIdx pool.t0).2 % 2 ^ 16, (builder.addOrGetAssetIdx pool.t1).2 % 2 ^ 16,
      pool.storeIndex, sol.ucp⟩

/-- Every solution given a pair index, one of `sols`, finds at that index the pair pushed for
it. -/
def PairIndicesAgree (builder : AssetArray) (sols : List SolutionRef)
    (acc : List Pair × List (Nat × Nat)) : Prop :=
  ∀ r ∈ acc.2, ∃ sol ∈ sols, ∃ p, sol.id = r.1 ∧ solutionPair pools builder sol = some p ∧
    acc.1[r.2]? = some p

/-! ### The first pass -/

theorem addSolutionAssets_spec {b : AssetArray} (h : b.Valid) (sol : SolutionRef) :
    (addSolutionAssets pools b sol).Valid ∧
      (∀ a, a ∈ (addSolutionAssets pools b sol).assets ↔
        a ∈ b.assets ∨ ∃ pool ∈ pools sol.id, a = pool.t0 ∨ a = pool.t1) ∧
      (addSolutionAssets pools b sol).assets.length ≤ b.assets.length + 2 := by
  rcases hp : pools sol.id with _ | pool
  · simp [addSolutionAssets, hp, h]
  · obtain ⟨h0, hm0, hl0⟩ := h.addOrGetAssetIdx pool.t0
    obtain ⟨h1, hm1, hl1⟩ := h0.addOrGetAssetIdx pool.t1
    simp only [addSolutionAssets, hp]
    refine ⟨h1, fun a => ?_, by omega⟩
    simp [hm1, hm0, or_assoc]

theorem foldl_addSolutionAssets_spec {b : AssetArray} (h : b.Valid)
    (sols : List SolutionRef) :
    (sols.foldl (addSolutionAssets pools) b).Valid ∧
      (∀ a, a ∈ (sols.foldl (addSolutionAssets pools) b).assets ↔
        a ∈ b.assets ∨ ∃ sol ∈ sols, ∃ pool ∈ pools sol.id, a = pool.t0 ∨ a = pool.t1) ∧
      (sols.foldl (addSolutionAssets pools) b).assets.length ≤
        b.assets.length + 2 * sols.length := by
  induction sols generalizing b with
  | nil => simp [h]
  | cons sol sols ih =>
    obtain ⟨h', hm', hl'⟩ := addSolutionAssets_spec pools h sol
    obtain ⟨h'', hm'', hl''⟩ := ih h'
    rw [List.foldl_cons]
    refine ⟨h'', fun a => ?_, by simp only [List.length_cons]; omega⟩
    rw [hm'', hm']
    simp [or_assoc]

theorem assetBuilder_spec (solutions : List SolutionRef) :
    (assetBuilder pools solutions).Valid ∧
      (assetBuilder pools solutions).assets.Pairwise (· < ·) ∧
      (∀ a, a ∈ (assetBuilder pools solutions).assets ↔
        ∃ sol ∈ solutions, ∃ pool ∈ pools sol.id, a = pool.t0 ∨ a = pool.t1) ∧
      (assetBuilder pools solutions).assets.length ≤ 2 * solutions.length := by
  obtain ⟨hv, hmem, hlen⟩ := foldl_addSolutionAssets_spec pools AssetArray.valid_new solutions
  obtain ⟨hv', hsorted, hperm⟩ := hv.orderAssetsProperly
  refine ⟨hv', hsorted, fun a => ?_, ?_⟩
  · rw [assetBuilder, hperm.mem_iff, hmem]
    simp [AssetArray.new]
  · rw [assetBuilder, hperm.length_eq]
    simpa [AssetArray.new] using hlen

/-! ### The second pass -/

theorem processSolution_fst (builder : AssetArray) (acc : List Pair × List (Nat × Nat))
    (sol : SolutionRef) :
    (processSolution pools builder acc sol).1 = acc.1 ++ (solutionPair pools builder sol).toList := by
  rcases hp : pools sol.id with _ | pool <;> simp [processSolution, solutionPair, hp]

theorem foldl_processSolution_fst (builder : AssetArray) (sols : List SolutionRef)
    (acc : List Pair × List (Nat × Nat)) :
    (sols.foldl (processSolution pools builder) acc).1 =
      acc.1 ++ sols.filterMap (solutionPair pools builder) := by
  induction sols generalizing acc with
  | nil => simp
  | cons sol sols ih =>
    rw [List.foldl_cons, ih, processSolution_fst, List.filterMap_cons]
    cases solutionPair pools builder sol <;> simp

theorem length_processSolution_fst_le (builder : AssetArray) (acc : List Pair × List (Nat × Nat))
    (sol : SolutionRef) : (processSolution pools builder acc sol).1.length ≤ acc.1.length + 1 := by
  rw [processSolution_fst]
  cases solutionPair pools builder sol <;> simp

variable {pools}

theorem pairIndicesAgree_processSolution {builder : AssetArray} {sols : List SolutionRef}
    {acc : List Pair × List (Nat × Nat)} {sol : SolutionRef}
    (h : PairIndicesAgree pools builder sols acc) (hsol : sol ∈ sols)
    (hlen : acc.1.length < 2 ^ 16) :
    PairIndicesAgree pools builder sols (processSolution pools builder acc sol) := by
  rcases hp : pools sol.id with _ | pool
  · have hskip : processSolution pools builder acc sol = acc := by
      simp [processSolution, hp]
    rw [hskip]
    exact h
  · intro r hr
    simp only [processSolution, hp, List.mem_append, List.mem_singleton] at hr ⊢
    rcases hr with hr | rfl
    · -- an earlier pair keeps its index
      obtain ⟨s, hs, p, hid, hsp, hget⟩ := h r hr
      refine ⟨s, hs, p, hid, hsp, ?_⟩
      rw [List.getElem?_append_left (List.getElem?_eq_some_iff.1 hget).1]
      exact hget
    · refine ⟨sol, hsol, ⟨(builder.addOrGetAssetIdx pool.t0).2 % 2 ^ 16,
        (builder.addOrGetAssetIdx pool.t1).2 % 2 ^ 16, pool.storeIndex, sol.ucp⟩, rfl,
        by simp [solutionPair, hp], ?_⟩
      rw [Nat.mod_eq_of_lt hlen]
      simp

theorem pairIndicesAgree_foldl {builder : AssetArray} {sols : List SolutionRef}
    {acc : List Pair × List (Nat × Nat)} (h : PairIndicesAgree pools builder sols acc)
    {l : List SolutionRef} (hl : ∀ s ∈ l, s ∈ sols) (hlen : acc.1.length + l.length ≤ 2 ^ 16) :
    PairIndicesAgree pools builder sols (l.foldl (processSolution pools builder) acc) := by
  induction l generalizing acc with
  | nil => exact h
  | cons sol l ih =>
    simp only [List.length_cons] at hlen
    have hstep := pairIndicesAgree_processSolution h (hl sol List.mem_cons_self) (by omega)
    have hgrow := length_processSolution_fst_le pools builder acc sol
    exact ih hstep (fun s hs => hl s (List.mem_cons_of_mem sol hs)) (by omega)

/-! ### Positions in the builder -/

variable {solutions : List SolutionRef} {sol : SolutionRef}

theorem solutionPair_of_mem {builder : AssetArray} {pool : PoolEntry} (hv : builder.Valid)
    (hfit : builder.assets.length ≤ 2 ^ 16) (hp : pools sol.id = some pool)
    (h0 : pool.t0 ∈ builder.assets) (h1 : pool.t1 ∈ builder.assets) :
    solutionPair pools builder sol = some ⟨builder.assets.idxOf pool.t0,
      builder.assets.idxOf pool.t1, pool.storeIndex, sol.ucp⟩ ∧
    solutionKey pools builder sol =
      builder.assets.idxOf pool.t0 * 2 ^ 16 + builder.assets.idxOf pool.t1 := by
  have hi0 := List.idxOf_lt_length_of_mem h0
  have hi1 := List.idxOf_lt_length_of_mem h1
  simp only [solutionPair, solutionKey, hp, hv.addOrGetAssetIdx_of_mem h0,
    hv.addOrGetAssetIdx_of_mem h1, Option.map_some]
  refine ⟨?_, ?_⟩
  · rw [Nat.mod_eq_of_lt (by omega), Nat.mod_eq_of_lt (by omega)]
  · -- the second index fits below bit `16`, so the `or` is a sum
    rw [← Nat.shiftLeft_add_eq_or_of_lt (by omega), Nat.shiftLeft_eq]

/-- A pair pushed for one of the solutions belongs to its pool: both tokens are in the builder,
the pair holds their positions, and its indices' `u32` is the solution's sort key. -/
theorem solutionPair_assetBuilder (hsize : 2 * solutions.length ≤ 2 ^ 16) (hsol : sol ∈ solutions)
    {p : Pair} (h : solutionPair pools (assetBuilder pools solutions) sol = some p) :
    ∃ pool ∈ pools sol.id, pool.t0 ∈ (assetBuilder pools solutions).assets ∧
      pool.t1 ∈ (assetBuilder pools solutions).assets ∧
      p = ⟨(assetBuilder pools solutions).assets.idxOf pool.t0,
        (assetBuilder pools solutions).assets.idxOf pool.t1, pool.storeIndex, sol.ucp⟩ ∧
      solutionKey pools (assetBuilder pools solutions) sol = p.index0 * 2 ^ 16 + p.index1 := by
  obtain ⟨pool, hp, -⟩ := Option.map_eq_some_iff.1 h
  obtain ⟨hv, -, hmem, hlen⟩ := assetBuilder_spec pools solutions
  have h0 := (hmem pool.t0).2 ⟨sol, hsol, pool, hp, .inl rfl⟩
  have h1 := (hmem pool.t1).2 ⟨sol, hsol, pool, hp, .inr rfl⟩
  obtain ⟨hpair, hkey⟩ := solutionPair_of_mem hv (by omega) hp h0 h1
  obtain rfl := Option.some.inj (h.symm.trans hpair)
  exact ⟨pool, hp, h0, h1, rfl, hkey⟩

end FromProposal

theorem fromProposal_pairs (pools : Nat → Option PoolEntry) (solutions : List SolutionRef) :
    (fromProposal pools solutions).pairs =
      (solutions.insertionSort fun a b => solutionKey pools (assetBuilder pools solutions) a ≤
        solutionKey pools (assetBuilder pools solutions) b).filterMap
        (solutionPair pools (assetBuilder pools solutions)) :=
  (foldl_processSolution_fst pools _ _ ([], [])).trans (List.nil_append _)

@[simp] theorem fromProposal_assets (pools : Nat → Option PoolEntry) (solutions : List SolutionRef) :
    (fromProposal pools solutions).assets = (assetBuilder pools solutions).assets := rfl

section Accepted

variable {pools : Nat → Option PoolEntry} {solutions : List SolutionRef}

theorem mem_assetBuilder_of_tokenPair {t : Address × Address}
    (ht : t ∈ solutions.filterMap (tokenPair pools)) :
    t.1 ∈ (assetBuilder pools solutions).assets ∧ t.2 ∈ (assetBuilder pools solutions).assets := by
  obtain ⟨s, hs, hst⟩ := List.mem_filterMap.1 ht
  obtain ⟨pool, hp, rfl⟩ := Option.map_eq_some_iff.1 hst
  obtain ⟨-, -, hmem, -⟩ := assetBuilder_spec pools solutions
  exact ⟨(hmem _).2 ⟨s, hs, pool, hp, .inl rfl⟩, (hmem _).2 ⟨s, hs, pool, hp, .inr rfl⟩⟩

theorem fromProposal_pairs_le (hsize : 2 * solutions.length ≤ 2 ^ 16) :
    ((fromProposal pools solutions).pairs.map fun p => p.index0 * 2 ^ 16 + p.index1).Pairwise
      (· ≤ ·) := by
  have : Std.Total fun a b : SolutionRef =>
      solutionKey pools (assetBuilder pools solutions) a ≤
        solutionKey pools (assetBuilder pools solutions) b := ⟨fun _ _ => le_total _ _⟩
  have : IsTrans SolutionRef fun a b =>
      solutionKey pools (assetBuilder pools solutions) a ≤
        solutionKey pools (assetBuilder pools solutions) b := ⟨fun _ _ _ => le_trans⟩
  have hperm := List.perm_insertionSort (fun a b => solutionKey pools (assetBuilder pools solutions) a ≤
    solutionKey pools (assetBuilder pools solutions) b) solutions
  rw [fromProposal_pairs, List.pairwise_map]
  refine List.Pairwise.filterMap _ ?_
    (List.Pairwise.and_mem.1 (List.pairwise_insertionSort _ solutions))
  rintro a b ⟨ha, hb, hab⟩ p hpa q hqb
  obtain ⟨-, -, -, -, -, hka⟩ := solutionPair_assetBuilder hsize (hperm.mem_iff.1 ha) hpa
  obtain ⟨-, -, -, -, -, hkb⟩ := solutionPair_assetBuilder hsize (hperm.mem_iff.1 hb) hqb
  rw [← hka, ← hkb]
  exact hab

theorem fromProposal_indices_nodup (hdistinct : (solutions.filterMap (tokenPair pools)).Nodup)
    (hsize : 2 * solutions.length ≤ 2 ^ 16) :
    ((fromProposal pools solutions).pairs.map fun p => p.index0 * 2 ^ 16 + p.index1).Nodup := by
  have hperm := List.perm_insertionSort (fun a b => solutionKey pools (assetBuilder pools solutions) a ≤
    solutionKey pools (assetBuilder pools solutions) b) solutions
  obtain ⟨-, -, -, hlen⟩ := assetBuilder_spec pools solutions
  have heq : ((fromProposal pools solutions).pairs.map fun p => p.index0 * 2 ^ 16 + p.index1) =
      ((solutions.insertionSort fun a b => solutionKey pools (assetBuilder pools solutions) a ≤
        solutionKey pools (assetBuilder pools solutions) b).filterMap (tokenPair pools)).map
        fun t => (assetBuilder pools solutions).assets.idxOf t.1 * 2 ^ 16 +
          (assetBuilder pools solutions).assets.idxOf t.2 := by
    rw [fromProposal_pairs, List.map_filterMap, List.map_filterMap]
    refine List.filterMap_congr fun s hs => ?_
    cases hsp : solutionPair pools (assetBuilder pools solutions) s with
    | none =>
      simp only [solutionPair, Option.map_eq_none_iff] at hsp
      simp [tokenPair, hsp]
    | some p =>
      obtain ⟨pool, hp, -, -, rfl, -⟩ :=
        solutionPair_assetBuilder hsize (hperm.mem_iff.1 hs) hsp
      simp [tokenPair, Option.mem_def.1 hp]
  rw [heq, ((hperm.filterMap _).map _).nodup_iff]
  refine List.Nodup.map_on ?_ hdistinct
  intro t ht t' ht' hpos
  obtain ⟨h0, h1⟩ := mem_assetBuilder_of_tokenPair ht
  obtain ⟨-, h1'⟩ := mem_assetBuilder_of_tokenPair ht'
  have := List.idxOf_lt_length_of_mem h1
  have := List.idxOf_lt_length_of_mem h1'
  have hfst : (assetBuilder pools solutions).assets.idxOf t.1 =
      (assetBuilder pools solutions).assets.idxOf t'.1 := by omega
  have hsnd : (assetBuilder pools solutions).assets.idxOf t.2 =
      (assetBuilder pools solutions).assets.idxOf t'.2 := by omega
  exact Prod.ext ((List.idxOf_inj h0).1 hfst) ((List.idxOf_inj h1).1 hsnd)

theorem fromProposal_pairs_inside
    (hpools : ∀ sol ∈ solutions, ∀ pool ∈ pools sol.id, 0 < pool.t0.val ∧ pool.t0 < pool.t1)
    (hsize : 2 * solutions.length ≤ 2 ^ 16) :
    ∀ p ∈ (fromProposal pools solutions).pairs,
      p.index0 < p.index1 ∧ p.index1 < (fromProposal pools solutions).assets.length := by
  intro p hp
  rw [fromProposal_pairs] at hp
  obtain ⟨s, hs, hsp⟩ := List.mem_filterMap.1 hp
  have hs' := (List.perm_insertionSort _ solutions).mem_iff.1 hs
  obtain ⟨pool, hpool, h0, h1, rfl, -⟩ := solutionPair_assetBuilder hsize hs' hsp
  obtain ⟨-, hsorted, -, -⟩ := assetBuilder_spec pools solutions
  exact ⟨IndexedList.idxOf_lt_idxOf hsorted h0 h1 (hpools s hs' pool hpool).2,
    List.idxOf_lt_length_of_mem h1⟩

theorem fromProposal_pairIndices (hsize : 2 * solutions.length ≤ 2 ^ 16) :
    ∀ r ∈ (fromProposal pools solutions).pairIndices, ∃ pool ∈ pools r.1, ∃ p,
      (fromProposal pools solutions).pairs[r.2]? = some p ∧
      (fromProposal pools solutions).assets[p.index0]? = some pool.t0 ∧
      (fromProposal pools solutions).assets[p.index1]? = some pool.t1 := by
  have hperm := List.perm_insertionSort (fun a b => solutionKey pools (assetBuilder pools solutions) a ≤
    solutionKey pools (assetBuilder pools solutions) b) solutions
  have hagree : PairIndicesAgree pools (assetBuilder pools solutions) solutions
      ((solutions.insertionSort fun a b => solutionKey pools (assetBuilder pools solutions) a ≤
        solutionKey pools (assetBuilder pools solutions) b).foldl
        (processSolution pools (assetBuilder pools solutions)) ([], [])) :=
    pairIndicesAgree_foldl (fun r hr => by cases hr) (fun s hs => hperm.mem_iff.1 hs)
      (by simp only [List.length_nil, Nat.zero_add, hperm.length_eq]; omega)
  intro r hr
  obtain ⟨sol, hsol, p, hid, hsp, hget⟩ := hagree r hr
  obtain ⟨pool, hp, h0, h1, rfl, -⟩ := solutionPair_assetBuilder hsize hsol hsp
  exact ⟨pool, hid ▸ hp, _, hget, List.getElem?_idxOf h0, List.getElem?_idxOf h1⟩

theorem fromProposal_wellFormed
    (hpools : ∀ sol ∈ solutions, ∀ pool ∈ pools sol.id, 0 < pool.t0.val ∧ pool.t0 < pool.t1)
    (hdistinct : (solutions.filterMap (tokenPair pools)).Nodup)
    (hsize : 2 * solutions.length ≤ 2 ^ 16) :
    (fromProposal pools solutions).WellFormed pools := by
  obtain ⟨-, hsorted, hmem, hlen⟩ := assetBuilder_spec pools solutions
  refine ⟨hsorted, ?_, by rw [fromProposal_assets]; omega, ?_,
    fromProposal_pairs_inside hpools hsize, fromProposal_pairIndices hsize⟩
  · -- every asset is a pool's token, and every pool's tokens are above address zero
    intro a ha
    obtain ⟨s, hs, pool, hp, rfl | rfl⟩ := (hmem a).1 ha
    · exact (hpools s hs pool hp).1
    · exact Nat.lt_trans (hpools s hs pool hp).1 (hpools s hs pool hp).2
  · -- indices that never decrease and never repeat rise strictly
    exact (fromProposal_pairs_le hsize).imp₂ (fun _ _ hle hne => lt_of_le_of_ne hle hne)
      (fromProposal_indices_nodup hdistinct hsize)

end Accepted

/-- The bundle lists built from solutions whose pools have distinct token pairs, each in address
order and above address zero, at most `2 ^ 15` of them, are well formed, and the contract's asset
and pair checks accept them. -/
theorem fromProposal_accepted (pools : Nat → Option PoolEntry) (solutions : List SolutionRef)
    (hpools : ∀ sol ∈ solutions, ∀ pool ∈ pools sol.id, 0 < pool.t0.val ∧ pool.t0 < pool.t1)
    (hdistinct : (solutions.filterMap (tokenPair pools)).Nodup)
    (hsize : 2 * solutions.length ≤ 2 ^ 16) :
    (fromProposal pools solutions).WellFormed pools ∧
      AssetLib.validate (fromProposal pools solutions).assets 0 = .ok () ∧
      PairLib.validate (fromProposal pools solutions).assets (fromProposal pools solutions).pairs 0 =
        .ok () := by
  have h := fromProposal_wellFormed hpools hdistinct hsize
  exact ⟨h, h.assets_accepted, h.pairs_accepted⟩

/-- Two pools sharing token `2`, and a solution of a pool missing from the map. -/
def twoPools : Nat → Option PoolEntry
  | 7 => some ⟨1, 2, 0⟩
  | 9 => some ⟨2, 3, 1⟩
  | _ => none

theorem twoPools_accepted :
    (fromProposal twoPools [⟨9, 5⟩, ⟨7, 6⟩, ⟨4, 0⟩]).WellFormed twoPools ∧
      AssetLib.validate (fromProposal twoPools [⟨9, 5⟩, ⟨7, 6⟩, ⟨4, 0⟩]).assets 0 = .ok () ∧
      PairLib.validate (fromProposal twoPools [⟨9, 5⟩, ⟨7, 6⟩, ⟨4, 0⟩]).assets
        (fromProposal twoPools [⟨9, 5⟩, ⟨7, 6⟩, ⟨4, 0⟩]).pairs 0 = .ok () :=
  fromProposal_accepted twoPools [⟨9, 5⟩, ⟨7, 6⟩, ⟨4, 0⟩] (by decide) (by decide) (by decide)

example : (fromProposal twoPools [⟨9, 5⟩, ⟨7, 6⟩, ⟨4, 0⟩]).pairs =
    [⟨0, 1, 0, 6⟩, ⟨1, 2, 1, 5⟩] := by
  decide +kernel


def onePool : Nat → Option PoolEntry
  | 7 => some ⟨1, 2, 0⟩
  | _ => none

/-- Two solutions of one pool push its pair twice, and the contract rejects the repeated pair. -/
theorem duplicatePool_rejected :
    PairLib.validate (fromProposal onePool [⟨7, 5⟩, ⟨7, 5⟩]).assets
      (fromProposal onePool [⟨7, 5⟩, ⟨7, 5⟩]).pairs 0 = .error .outOfOrderOrDuplicatePairs := by
  decide +kernel

example : (fromProposal onePool [⟨7, 5⟩, ⟨7, 5⟩]).pairs = [⟨0, 1, 0, 5⟩, ⟨0, 1, 0, 5⟩] := by
  decide +kernel

end Angstrom.Payload
