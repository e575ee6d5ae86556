import Mathlib

/-!
# The asset builder's borrow accounting

`crates/types/src/contract_payloads/asset/{state.rs, builder.rs}`. For every asset of a bundle
the node tracks what the contract takes from Uniswap (`take`), owes back to it (`settle`), keeps
for itself (`save`) and holds at a point of execution (`contract_liquid`). A
`BorrowStateTracker` follows the calls of one stage of execution; `allocate` pays from the liquid
balance and borrows the shortfall. The `AssetBuilder` keeps a `StageTracker` (a tracker per
asset) for each of the four stages (Uniswap swaps, rewards, top-of-block orders, user orders), and
`get_asset_array` combines them with `and_then`, which sees each later stage only through its four
counters.

The counters are `u128`, and `+=` wraps in a release build (`wrappingAdd`). A `HashMap` entry
that is missing reads here as `BorrowStateTracker::new()`; `and_then` with a new tracker changes
nothing (`andThen_new`, `new_andThen`), so the map's `and_then` is the pointwise one.

A stage of receipts, allocations and gas fees (every stage but the swaps) acts on any tracker
through three numbers: what it borrows when it starts with nothing liquid (`deficit`, the largest
excess of allocations over receipts on a prefix), what it leaves liquid then (`surplus`) and its
gas fees (`run_stage`). `and_then` computes exactly that, so running such a stage after any
tracker is `and_then` with the stage run alone (`run_eq_andThen`) as long as no counter wraps,
and the four stages of the builder combine into the run of all their calls in stage order
(`stagesCombined_map`).
-/

namespace Angstrom.Payload

def wrappingAdd (a b : Nat) : Nat := (a + b) % 2 ^ 128

theorem wrappingAdd_of_lt {a b : Nat} (h : a + b < 2 ^ 128) : wrappingAdd a b = a + b :=
  Nat.mod_eq_of_lt h

/-- `BorrowStateTracker`: one asset's borrowing from Uniswap over a stage of execution. -/
@[ext]
structure BorrowStateTracker where
  take : Nat
  contractLiquid : Nat
  settle : Nat
  save : Nat
  deriving DecidableEq, Repr

namespace BorrowStateTracker

def new : BorrowStateTracker := ⟨0, 0, 0, 0⟩

def loan (self : BorrowStateTracker) (q : Nat) : BorrowStateTracker :=
  { self with take := wrappingAdd self.take q, settle := wrappingAdd self.settle q }

def allocate (self : BorrowStateTracker) (q : Nat) : BorrowStateTracker :=
  let self := if q > self.contractLiquid then self.loan (q - self.contractLiquid) else self
  { self with contractLiquid := self.contractLiquid - q }

def owe (self : BorrowStateTracker) (q : Nat) : BorrowStateTracker :=
  { self with settle := wrappingAdd self.settle q }

def reward (self : BorrowStateTracker) (q : Nat) : BorrowStateTracker :=
  { self with take := wrappingAdd self.take q }

/-- The method `take` (the field has its name): a pool swap's output, taken into the contract's
liquid balance. -/
def takeFromPool (self : BorrowStateTracker) (q : Nat) : BorrowStateTracker :=
  { self with take := wrappingAdd self.take q, contractLiquid := wrappingAdd self.contractLiquid q }

def recieve (self : BorrowStateTracker) (q : Nat) : BorrowStateTracker :=
  { self with contractLiquid := wrappingAdd self.contractLiquid q }

def addGasFee (self : BorrowStateTracker) (q : Nat) : BorrowStateTracker :=
  { self with save := wrappingAdd self.save q }

/-- `and_then`: the stage summarized by `other` after this one. What this one leaves liquid
covers the next one's borrowing and debt first. -/
def andThen (self other : BorrowStateTracker) : BorrowStateTracker :=
  { take := wrappingAdd self.take (other.take - self.contractLiquid)
    contractLiquid := wrappingAdd (self.contractLiquid - other.take) other.contractLiquid
    settle := wrappingAdd self.settle (other.settle - self.contractLiquid)
    save := wrappingAdd self.save other.save }

end BorrowStateTracker

/-- A call on one asset's tracker. -/
inductive BorrowOp
  | allocate (q : Nat)
  | owe (q : Nat)
  | reward (q : Nat)
  | take (q : Nat)
  | recieve (q : Nat)
  | loan (q : Nat)
  | addGasFee (q : Nat)
  deriving DecidableEq, Repr

namespace BorrowOp

def apply (x : BorrowStateTracker) : BorrowOp → BorrowStateTracker
  | allocate q => x.allocate q
  | owe q => x.owe q
  | reward q => x.reward q
  | take q => x.takeFromPool q
  | recieve q => x.recieve q
  | loan q => x.loan q
  | addGasFee q => x.addGasFee q

def quantity : BorrowOp → Nat
  | allocate q | owe q | reward q | take q | recieve q | loan q | addGasFee q => q

def isStageOp : BorrowOp → Bool
  | allocate _ | recieve _ | addGasFee _ => true
  | _ => false

end BorrowOp

def volume (ops : List BorrowOp) : Nat := (ops.map BorrowOp.quantity).sum

@[simp] theorem volume_nil : volume [] = 0 := rfl

@[simp] theorem volume_cons (op : BorrowOp) (ops : List BorrowOp) :
    volume (op :: ops) = op.quantity + volume ops := by
  simp [volume]

@[simp] theorem volume_append (ops ops' : List BorrowOp) :
    volume (ops ++ ops') = volume ops + volume ops' := by
  simp [volume]

namespace BorrowStateTracker

def run (x : BorrowStateTracker) (ops : List BorrowOp) : BorrowStateTracker :=
  ops.foldl BorrowOp.apply x

@[simp] theorem run_nil (x : BorrowStateTracker) : x.run [] = x := rfl

@[simp] theorem run_cons (x : BorrowStateTracker) (op : BorrowOp) (ops : List BorrowOp) :
    x.run (op :: ops) = (op.apply x).run ops := rfl

theorem run_append (x : BorrowStateTracker) (ops ops' : List BorrowOp) :
    x.run (ops ++ ops') = (x.run ops).run ops' :=
  List.foldl_append

/-! ## Counters that do not wrap -/

/-- Every counter of `x` can grow by `v` without wrapping; `Fits x 0` says that the counters are
`u128` values. -/
structure Fits (x : BorrowStateTracker) (v : Nat) : Prop where
  take_lt : x.take + v < 2 ^ 128
  contractLiquid_lt : x.contractLiquid + v < 2 ^ 128
  settle_lt : x.settle + v < 2 ^ 128
  save_lt : x.save + v < 2 ^ 128

section Fits

variable {x : BorrowStateTracker} {q v : Nat}

theorem Fits.mono {w : Nat} (h : Fits x v) (hw : w ≤ v) : Fits x w :=
  ⟨by have := h.1; omega, by have := h.2; omega, by have := h.3; omega, by have := h.4; omega⟩

theorem fits_new (h : v < 2 ^ 128) : Fits new v := ⟨by simpa [new], by simpa [new],
  by simpa [new], by simpa [new]⟩

/-! Each method without wrapping. -/

theorem loan_of_fits (h : Fits x q) : x.loan q = ⟨x.take + q, x.contractLiquid, x.settle + q, x.save⟩ := by
  simp [loan, wrappingAdd_of_lt h.take_lt, wrappingAdd_of_lt h.settle_lt]

theorem allocate_of_fits (h : Fits x q) :
    x.allocate q = ⟨x.take + (q - x.contractLiquid), x.contractLiquid - q,
      x.settle + (q - x.contractLiquid), x.save⟩ := by
  unfold allocate
  by_cases hq : q > x.contractLiquid
  · -- the shortfall is borrowed and the balance runs out
    rw [if_pos hq, loan_of_fits (h.mono (by omega))]
  · rw [if_neg hq]
    ext <;> simp <;> omega

theorem owe_of_fits (h : Fits x q) : x.owe q = { x with settle := x.settle + q } := by
  simp [owe, wrappingAdd_of_lt h.settle_lt]

theorem reward_of_fits (h : Fits x q) : x.reward q = { x with take := x.take + q } := by
  simp [reward, wrappingAdd_of_lt h.take_lt]

theorem takeFromPool_of_fits (h : Fits x q) :
    x.takeFromPool q = { x with take := x.take + q, contractLiquid := x.contractLiquid + q } := by
  simp [takeFromPool, wrappingAdd_of_lt h.take_lt, wrappingAdd_of_lt h.contractLiquid_lt]

theorem recieve_of_fits (h : Fits x q) :
    x.recieve q = { x with contractLiquid := x.contractLiquid + q } := by
  simp [recieve, wrappingAdd_of_lt h.contractLiquid_lt]

theorem addGasFee_of_fits (h : Fits x q) : x.addGasFee q = { x with save := x.save + q } := by
  simp [addGasFee, wrappingAdd_of_lt h.save_lt]

theorem Fits.apply {op : BorrowOp} (h : Fits x (op.quantity + v)) : Fits (op.apply x) v := by
  have hq : Fits x op.quantity := h.mono (by omega)
  obtain ⟨h1, h2, h3, h4⟩ := h
  cases op <;> simp only [BorrowOp.quantity] at hq h1 h2 h3 h4 <;>
    simp only [BorrowOp.apply, allocate_of_fits hq, owe_of_fits hq, reward_of_fits hq,
      takeFromPool_of_fits hq, recieve_of_fits hq, loan_of_fits hq, addGasFee_of_fits hq] <;>
    constructor <;> dsimp only <;> omega

theorem Fits.run {ops : List BorrowOp} (h : Fits x (volume ops + v)) : Fits (x.run ops) v := by
  induction ops generalizing x with
  | nil => simpa using h
  | cons op ops ih =>
    rw [run_cons]
    exact ih (Fits.apply (by rw [volume_cons, Nat.add_assoc] at h; exact h))

end Fits

theorem andThen_new (x : BorrowStateTracker) (hx : Fits x 0) : x.andThen new = x := by
  obtain ⟨h1, h2, h3, h4⟩ := hx
  simp only [Nat.add_zero] at h1 h2 h3 h4
  ext <;> simp only [andThen, new] <;> rw [wrappingAdd_of_lt] <;> omega

theorem new_andThen (y : BorrowStateTracker) (hy : Fits y 0) : new.andThen y = y := by
  obtain ⟨h1, h2, h3, h4⟩ := hy
  simp only [Nat.add_zero] at h1 h2 h3 h4
  ext <;> simp only [andThen, new] <;> rw [wrappingAdd_of_lt] <;> omega

/-! ## A stage of receipts, allocations and gas fees -/

/-- What a stage borrows when it starts with nothing liquid: the largest excess of its
allocations over its receipts on a prefix. -/
def deficit : List BorrowOp → Nat
  | [] => 0
  | .allocate q :: ops => q + deficit ops
  | .recieve q :: ops => deficit ops - q
  | _ :: ops => deficit ops

def surplus : List BorrowOp → Nat
  | [] => 0
  | .recieve q :: ops => (q - deficit ops) + surplus ops
  | _ :: ops => surplus ops

def gasFees : List BorrowOp → Nat
  | [] => 0
  | .addGasFee q :: ops => q + gasFees ops
  | _ :: ops => gasFees ops

theorem deficit_le_volume (ops : List BorrowOp) : deficit ops ≤ volume ops := by
  induction ops with
  | nil => exact Nat.le_refl _
  | cons op ops ih => cases op <;> simp [deficit, BorrowOp.quantity] <;> omega

theorem surplus_le_volume (ops : List BorrowOp) : surplus ops ≤ volume ops := by
  induction ops with
  | nil => exact Nat.le_refl _
  | cons op ops ih => cases op <;> simp [surplus, BorrowOp.quantity] <;> omega

theorem gasFees_le_volume (ops : List BorrowOp) : gasFees ops ≤ volume ops := by
  induction ops with
  | nil => exact Nat.le_refl _
  | cons op ops ih => cases op <;> simp [gasFees, BorrowOp.quantity] <;> omega

/-- A stage of receipts, allocations and gas fees, run from any tracker without wrapping,
borrows what its deficit exceeds the liquid balance by, and ends with the balance left over the
deficit plus its surplus. The induction is on the stage; each call moves the balance the stage
starts with past its first call. -/
theorem run_stage (ops : List BorrowOp) (hops : ∀ op ∈ ops, op.isStageOp) (x : BorrowStateTracker)
    (hfit : Fits x (volume ops)) :
    x.run ops = ⟨x.take + (deficit ops - x.contractLiquid),
      (x.contractLiquid - deficit ops) + surplus ops,
      x.settle + (deficit ops - x.contractLiquid), x.save + gasFees ops⟩ := by
  induction ops generalizing x with
  | nil => ext <;> simp [deficit, surplus, gasFees]
  | cons op ops ih =>
    have hops' : ∀ op ∈ ops, op.isStageOp := fun o ho => hops o (List.mem_cons_of_mem _ ho)
    rw [run_cons, ih hops' _ (Fits.apply (by rwa [volume_cons] at hfit))]
    have hq : Fits x op.quantity := hfit.mono (by simp)
    cases op <;> simp only [BorrowOp.quantity] at hq
    case allocate q =>
      rw [BorrowOp.apply, allocate_of_fits hq]
      ext <;> simp only [deficit, surplus, gasFees] <;> omega
    case recieve q =>
      rw [BorrowOp.apply, recieve_of_fits hq]
      ext <;> simp only [deficit, surplus, gasFees] <;> omega
    case addGasFee q =>
      rw [BorrowOp.apply, addGasFee_of_fits hq]
      ext <;> simp only [deficit, surplus, gasFees]
      omega
    all_goals simp [BorrowOp.isStageOp] at hops

theorem run_eq_andThen (x : BorrowStateTracker) (ops : List BorrowOp)
    (hops : ∀ op ∈ ops, op.isStageOp) (hfit : Fits x (volume ops)) :
    x.run ops = x.andThen (new.run ops) := by
  have hvol : volume ops < 2 ^ 128 := by have := hfit.take_lt; omega
  have hd := deficit_le_volume ops
  have hs := surplus_le_volume ops
  have hg := gasFees_le_volume ops
  obtain ⟨h1, h2, h3, h4⟩ := hfit
  rw [run_stage ops hops x ⟨h1, h2, h3, h4⟩, run_stage ops hops new (fits_new hvol)]
  simp only [andThen, new, Nat.zero_add, Nat.zero_sub, Nat.sub_zero]
  rw [wrappingAdd_of_lt (by omega), wrappingAdd_of_lt (by omega), wrappingAdd_of_lt (by omega),
    wrappingAdd_of_lt (by omega)]

theorem run_append_stage (x : BorrowStateTracker) (ops ops' : List BorrowOp)
    (hops' : ∀ op ∈ ops', op.isStageOp) (hfit : Fits x (volume ops + volume ops')) :
    x.run (ops ++ ops') = (x.run ops).andThen (new.run ops') := by
  rw [run_append]
  exact run_eq_andThen _ ops' hops' (Fits.run hfit)

theorem andThen_assoc_of_stages (x : BorrowStateTracker) (ops₁ ops₂ : List BorrowOp)
    (h₁ : ∀ op ∈ ops₁, op.isStageOp) (h₂ : ∀ op ∈ ops₂, op.isStageOp)
    (hfit : Fits x (volume ops₁ + volume ops₂)) :
    (x.andThen (new.run ops₁)).andThen (new.run ops₂) =
      x.andThen ((new.run ops₁).andThen (new.run ops₂)) := by
  have hvol : volume ops₁ + volume ops₂ < 2 ^ 128 := by have := hfit.take_lt; omega
  have h₁₂ : ∀ op ∈ ops₁ ++ ops₂, op.isStageOp := by
    intro op hop
    rcases List.mem_append.1 hop with h | h
    · exact h₁ op h
    · exact h₂ op h
  rw [← run_eq_andThen x ops₁ h₁ (hfit.mono (by omega)),
    ← run_eq_andThen (x.run ops₁) ops₂ h₂ (Fits.run hfit),
    ← run_eq_andThen (new.run ops₁) ops₂ h₂ (Fits.run (fits_new hvol)), ← run_append,
    ← run_append]
  exact run_eq_andThen x _ h₁₂ (by rwa [volume_append])

end BorrowStateTracker

/-! ## Stages and the builder -/

/-- `StageTracker`: a tracker per asset; an asset not touched yet reads as
`BorrowStateTracker::new()`. -/
structure StageTracker (Address : Type) where
  map : Address → BorrowStateTracker

/-- A call on a stage. -/
inductive StageOp (Address : Type)
  | uniswapSwap (assetIn assetOut : Address) (quantityIn quantityOut : Nat)
  | externalSwap (assetIn assetOut : Address) (quantityIn quantityOut : Nat)
  | allocate (asset : Address) (q : Nat)
  | tribute (asset : Address) (q : Nat)
  | addGasFee (asset : Address) (qty : Nat)
  deriving DecidableEq, Repr

namespace StageTracker

variable {Address : Type} [DecidableEq Address]

def new : StageTracker Address := ⟨fun _ => .new⟩

def modify (self : StageTracker Address) (addr : Address)
    (f : BorrowStateTracker → BorrowStateTracker) : StageTracker Address :=
  ⟨Function.update self.map addr (f (self.map addr))⟩

def uniswapSwap (self : StageTracker Address) (assetIn assetOut : Address)
    (quantityIn quantityOut : Nat) : StageTracker Address :=
  (self.modify assetIn (·.owe quantityIn)).modify assetOut (·.takeFromPool quantityOut)

/-- `external_swap`: a user's or searcher's order pays in and is paid out. -/
def externalSwap (self : StageTracker Address) (assetIn assetOut : Address)
    (quantityIn quantityOut : Nat) : StageTracker Address :=
  (self.modify assetIn (·.recieve quantityIn)).modify assetOut (·.allocate quantityOut)

def allocate (self : StageTracker Address) (asset : Address) (q : Nat) : StageTracker Address :=
  self.modify asset (·.allocate q)

def tribute (self : StageTracker Address) (asset : Address) (q : Nat) : StageTracker Address :=
  self.modify asset (·.reward q)

def addGasFee (self : StageTracker Address) (asset : Address) (qty : Nat) : StageTracker Address :=
  self.modify asset (·.addGasFee qty)

def andThen (self other : StageTracker Address) : StageTracker Address :=
  ⟨fun a => (self.map a).andThen (other.map a)⟩

def collectExtra (self : StageTracker Address) : StageTracker Address :=
  ⟨fun a =>
    let state := self.map a
    ⟨state.take, 0, state.settle, wrappingAdd state.save (state.contractLiquid - state.settle)⟩⟩

theorem modify_map (self : StageTracker Address) (b a : Address)
    (f : BorrowStateTracker → BorrowStateTracker) :
    (self.modify b f).map a = if a = b then f (self.map a) else self.map a := by
  by_cases h : a = b
  · subst h
    simp [modify]
  · simp [modify, h]

end StageTracker

namespace StageOp

variable {Address : Type} [DecidableEq Address]

def apply (self : StageTracker Address) : StageOp Address → StageTracker Address
  | uniswapSwap assetIn assetOut quantityIn quantityOut =>
    self.uniswapSwap assetIn assetOut quantityIn quantityOut
  | externalSwap assetIn assetOut quantityIn quantityOut =>
    self.externalSwap assetIn assetOut quantityIn quantityOut
  | allocate asset q => self.allocate asset q
  | tribute asset q => self.tribute asset q
  | addGasFee asset qty => self.addGasFee asset qty

def forAsset (a : Address) : StageOp Address → List BorrowOp
  | uniswapSwap assetIn assetOut quantityIn quantityOut =>
    (if a = assetIn then [.owe quantityIn] else []) ++
      (if a = assetOut then [.take quantityOut] else [])
  | externalSwap assetIn assetOut quantityIn quantityOut =>
    (if a = assetIn then [.recieve quantityIn] else []) ++
      (if a = assetOut then [.allocate quantityOut] else [])
  | allocate asset q => if a = asset then [.allocate q] else []
  | tribute asset q => if a = asset then [.reward q] else []
  | addGasFee asset qty => if a = asset then [.addGasFee qty] else []

def isStageOp : StageOp Address → Bool
  | externalSwap .. | allocate .. | addGasFee .. => true
  | _ => false

theorem apply_map (self : StageTracker Address) (op : StageOp Address) (a : Address) :
    (apply self op).map a = (self.map a).run (op.forAsset a) := by
  cases op <;>
    simp only [apply, forAsset, StageTracker.uniswapSwap, StageTracker.externalSwap,
      StageTracker.allocate, StageTracker.tribute, StageTracker.addGasFee,
      StageTracker.modify_map] <;>
    split_ifs <;> simp_all [BorrowOp.apply]

theorem isStageOp_forAsset {op : StageOp Address} (h : op.isStageOp) (a : Address) :
    ∀ b ∈ op.forAsset a, b.isStageOp := by
  cases op <;> simp only [isStageOp, Bool.false_eq_true] at h <;>
    simp only [forAsset] <;> split_ifs <;> simp [BorrowOp.isStageOp]

end StageOp

namespace StageTracker

variable {Address : Type} [DecidableEq Address]

def run (self : StageTracker Address) (ops : List (StageOp Address)) : StageTracker Address :=
  ops.foldl StageOp.apply self

theorem run_map (self : StageTracker Address) (ops : List (StageOp Address)) (a : Address) :
    (self.run ops).map a = (self.map a).run (ops.flatMap (StageOp.forAsset a)) := by
  induction ops generalizing self with
  | nil => rfl
  | cons op ops ih =>
    rw [run, List.foldl_cons, ← run, ih, StageOp.apply_map, List.flatMap_cons,
      BorrowStateTracker.run_append]

end StageTracker

/-- `AssetBuilderStage`. -/
inductive AssetBuilderStage
  | swap
  | reward
  | topOfBlock
  | userOrder
  deriving DecidableEq, Repr

/-- `AssetBuilder`, without its asset array: the trackers of the four stages. -/
structure AssetBuilder (Address : Type) where
  swaps : StageTracker Address
  rewards : StageTracker Address
  topOfBlock : StageTracker Address
  userOrders : StageTracker Address

namespace AssetBuilder

variable {Address : Type} [DecidableEq Address]

def new : AssetBuilder Address := ⟨.new, .new, .new, .new⟩

def getStage (self : AssetBuilder Address) : AssetBuilderStage → StageTracker Address
  | .swap => self.swaps
  | .reward => self.rewards
  | .topOfBlock => self.topOfBlock
  | .userOrder => self.userOrders

def apply (self : AssetBuilder Address) : AssetBuilderStage × StageOp Address → AssetBuilder Address
  | (.swap, op) => { self with swaps := op.apply self.swaps }
  | (.reward, op) => { self with rewards := op.apply self.rewards }
  | (.topOfBlock, op) => { self with topOfBlock := op.apply self.topOfBlock }
  | (.userOrder, op) => { self with userOrders := op.apply self.userOrders }

def run (self : AssetBuilder Address) (calls : List (AssetBuilderStage × StageOp Address)) :
    AssetBuilder Address :=
  calls.foldl apply self

/-- `swaps.and_then(rewards).and_then(top_of_block).and_then(user_orders)`. -/
def stagesCombined (self : AssetBuilder Address) : StageTracker Address :=
  ((self.swaps.andThen self.rewards).andThen self.topOfBlock).andThen self.userOrders

/-- `combined_assets` of `get_asset_array`, which the assets read `take`, `settle` and `save`
from. -/
def combinedAssets (self : AssetBuilder Address) : StageTracker Address :=
  self.stagesCombined.collectExtra

def stageCalls (calls : List (AssetBuilderStage × StageOp Address)) (stage : AssetBuilderStage) :
    List (StageOp Address) :=
  (calls.filter fun c => c.1 = stage).map (·.2)

def inStageOrder (calls : List (AssetBuilderStage × StageOp Address)) : List (StageOp Address) :=
  stageCalls calls .swap ++ stageCalls calls .reward ++ stageCalls calls .topOfBlock ++
    stageCalls calls .userOrder

theorem getStage_apply (self : AssetBuilder Address) (c : AssetBuilderStage × StageOp Address)
    (stage : AssetBuilderStage) :
    (self.apply c).getStage stage =
      if c.1 = stage then c.2.apply (self.getStage stage) else self.getStage stage := by
  obtain ⟨s, op⟩ := c
  cases s <;> cases stage <;> rfl

theorem getStage_run (self : AssetBuilder Address) (calls : List (AssetBuilderStage × StageOp Address))
    (stage : AssetBuilderStage) :
    (self.run calls).getStage stage = (self.getStage stage).run (stageCalls calls stage) := by
  induction calls generalizing self with
  | nil => rfl
  | cons c calls ih =>
    rw [run, List.foldl_cons, ← run, ih, getStage_apply]
    by_cases h : c.1 = stage
    · simp [stageCalls, h, StageTracker.run]
    · simp [stageCalls, h]

omit [DecidableEq Address] in
theorem mem_stageCalls {calls : List (AssetBuilderStage × StageOp Address)}
    {stage : AssetBuilderStage} {op : StageOp Address} :
    op ∈ stageCalls calls stage ↔ (stage, op) ∈ calls := by
  simp only [stageCalls, List.mem_map, List.mem_filter, decide_eq_true_eq]
  constructor
  · rintro ⟨⟨s, o⟩, ⟨hmem, rfl⟩, rfl⟩
    exact hmem
  · intro h
    exact ⟨(stage, op), ⟨h, rfl⟩, rfl⟩

theorem isStageOp_of_stageCalls {calls : List (AssetBuilderStage × StageOp Address)}
    (hcalls : ∀ c ∈ calls, c.1 ≠ .swap → c.2.isStageOp) {stage : AssetBuilderStage}
    (hstage : stage ≠ .swap) (a : Address) :
    ∀ b ∈ (stageCalls calls stage).flatMap (StageOp.forAsset a), b.isStageOp := by
  intro b hb
  obtain ⟨op, hop, hb⟩ := List.mem_flatMap.1 hb
  exact StageOp.isStageOp_forAsset (hcalls (stage, op) (mem_stageCalls.1 hop) hstage) a b hb

theorem volume_inStageOrder (calls : List (AssetBuilderStage × StageOp Address)) (a : Address) :
    volume ((inStageOrder calls).flatMap (StageOp.forAsset a)) =
      volume (calls.flatMap fun c => c.2.forAsset a) := by
  induction calls with
  | nil => rfl
  | cons c calls ih =>
    obtain ⟨s, op⟩ := c
    simp only [inStageOrder, stageCalls, List.flatMap_append, volume_append] at ih ⊢
    cases s <;> simp [volume_append] at ih ⊢ <;> omega

/-- For every asset whose calls move less than `2 ^ 128` in all, the four stages combined by
`and_then` give the run of all the calls in stage order: swaps, rewards, top-of-block orders,
user orders. -/
theorem stagesCombined_map (calls : List (AssetBuilderStage × StageOp Address))
    (hcalls : ∀ c ∈ calls, c.1 ≠ .swap → c.2.isStageOp) (a : Address)
    (hvol : volume (calls.flatMap fun c => c.2.forAsset a) < 2 ^ 128) :
    (new.run calls).stagesCombined.map a = (StageTracker.new.run (inStageOrder calls)).map a := by
  set sw := (stageCalls calls .swap).flatMap (StageOp.forAsset a)
  set rw := (stageCalls calls .reward).flatMap (StageOp.forAsset a)
  set tb := (stageCalls calls .topOfBlock).flatMap (StageOp.forAsset a)
  set uo := (stageCalls calls .userOrder).flatMap (StageOp.forAsset a)
  have hsum : volume sw + volume rw + volume tb + volume uo < 2 ^ 128 := by
    rw [← volume_inStageOrder] at hvol
    simpa [inStageOrder, sw, rw, tb, uo, Nat.add_assoc] using hvol
  have hstage (stage : AssetBuilderStage) : (new.run calls).getStage stage =
      StageTracker.new.run (stageCalls calls stage) := by
    rw [getStage_run]
    cases stage <;> rfl
  have hrun : (StageTracker.new.run (inStageOrder calls)).map a =
      BorrowStateTracker.new.run (sw ++ rw ++ tb ++ uo) := by
    simp [StageTracker.run_map, inStageOrder, sw, rw, tb, uo, StageTracker.new]
  rw [hrun,
    BorrowStateTracker.run_append_stage _ _ uo (isStageOp_of_stageCalls hcalls (by decide) a)
      (BorrowStateTracker.fits_new (by simp only [volume_append]; omega)),
    BorrowStateTracker.run_append_stage _ _ tb (isStageOp_of_stageCalls hcalls (by decide) a)
      (BorrowStateTracker.fits_new (by simp only [volume_append]; omega)),
    BorrowStateTracker.run_append_stage _ _ rw (isStageOp_of_stageCalls hcalls (by decide) a)
      (BorrowStateTracker.fits_new (by omega))]
  simp only [stagesCombined, StageTracker.andThen]
  rw [← getStage, ← getStage, ← getStage, ← getStage]
  simp [hstage, StageTracker.run_map, StageTracker.new, sw, rw, tb, uo]

end AssetBuilder

open BorrowStateTracker in
/-- Stage composition is a homomorphism when no counter wraps: any run `A` followed by a stage
`B` of receipts, allocations and gas fees is `run(A).and_then(run(B))`; `and_then` is
associative on such stages; and the builder's `and_then` of its four stages is, for every asset,
the run of all its calls in stage order. -/
theorem stage_composition :
    (∀ A B : List BorrowOp, (∀ op ∈ B, op.isStageOp) → volume (A ++ B) < 2 ^ 128 →
      new.run (A ++ B) = (new.run A).andThen (new.run B)) ∧
    (∀ A B₁ B₂ : List BorrowOp, (∀ op ∈ B₁, op.isStageOp) → (∀ op ∈ B₂, op.isStageOp) →
      volume (A ++ B₁ ++ B₂) < 2 ^ 128 →
      ((new.run A).andThen (new.run B₁)).andThen (new.run B₂) =
        (new.run A).andThen ((new.run B₁).andThen (new.run B₂))) ∧
    (∀ (Address : Type) [DecidableEq Address] (calls : List (AssetBuilderStage × StageOp Address))
      (a : Address), (∀ c ∈ calls, c.1 ≠ .swap → c.2.isStageOp) →
      volume (calls.flatMap fun c => c.2.forAsset a) < 2 ^ 128 →
      (AssetBuilder.new.run calls).stagesCombined.map a =
        (StageTracker.new.run (AssetBuilder.inStageOrder calls)).map a) := by
  refine ⟨fun A B hB hvol => ?_, fun A B₁ B₂ h₁ h₂ hvol => ?_,
    fun Address _ calls a hcalls hvol => AssetBuilder.stagesCombined_map calls hcalls a hvol⟩
  · exact run_append_stage new A B hB (fits_new (by rwa [← volume_append]))
  · rw [volume_append, volume_append] at hvol
    exact andThen_assoc_of_stages _ B₁ B₂ h₁ h₂
      (Fits.run (fits_new (by rw [Nat.add_assoc] at hvol; exact hvol)))

def sampleCalls : List (AssetBuilderStage × StageOp Nat) :=
  [(.swap, .uniswapSwap 1 2 10 20), (.userOrder, .externalSwap 2 1 5 3),
    (.reward, .allocate 1 4), (.reward, .addGasFee 1 4)]

theorem stage_composition_sampleCalls :
    BorrowStateTracker.new.run ([.take 5] ++ [.recieve 2, .allocate 7, .addGasFee 1]) =
        (BorrowStateTracker.new.run [.take 5]).andThen
          (BorrowStateTracker.new.run [.recieve 2, .allocate 7, .addGasFee 1]) ∧
      (AssetBuilder.new.run sampleCalls).stagesCombined.map 1 =
        (StageTracker.new.run (AssetBuilder.inStageOrder sampleCalls)).map 1 :=
  ⟨stage_composition.1 _ _ (by decide) (by decide),
    stage_composition.2.2 Nat sampleCalls 1 (by decide) (by decide)⟩

/-- Where a counter wraps the homomorphism fails: a receipt of `2 ^ 128 - 1`, then a receipt
of `1` and an allocation of `1`. Run in sequence, the balance wraps to `0` and the allocation is
borrowed; `and_then` sees the second stage borrow nothing. -/
theorem andThen_wraps :
    BorrowStateTracker.new.run ([.recieve (2 ^ 128 - 1)] ++ [.recieve 1, .allocate 1]) =
        ⟨1, 0, 1, 0⟩ ∧
      (BorrowStateTracker.new.run [.recieve (2 ^ 128 - 1)]).andThen
          (BorrowStateTracker.new.run [.recieve 1, .allocate 1]) = ⟨0, 2 ^ 128 - 1, 0, 0⟩ := by
  decide

end Angstrom.Payload
