import Angstrom.Contract.Basic
import Angstrom.Lib.Bytes

/-!
# Mixed-sign arithmetic and the delta tracker

`MixedSignLib` (`libraries/MixedSignLib.sol`) adds or subtracts an unsigned amount to or from a
signed one, and a signed amount to or from an unsigned one. It does so in inline assembly: the
EVM adds the two words modulo `2 ^ 256`, and a single comparison on the result detects the
overflow (`slt` or `sgt` against the signed operand, or `shr(128, z)` for the `uint128` result).
`DeltaTrackerLib` (`types/DeltaTracker.sol`) keeps one transient `int256` per asset and updates it
through the first two.

A word is a natural number below `2 ^ 256`, read as an `int256` by `toSigned 32`; `word v` is the
word of a signed value. The EVM sum of two words is the word of the exact sum
(`wrapAdd_word`, `wrapSub_word`), so each function's guard is a comparison on exact integers, and each function
returns the exact result or reverts exactly when it leaves its range (`add_eq`, `sub_eq`,
`addUint128_eq`, `subUint128_eq`). A run of tracker updates then either reverts, exactly when a
partial sum of some asset leaves the `int256` range, or leaves each asset's delta equal to the
exact sum of its updates (`run_get`, `run_isOk_iff`).
-/

namespace Angstrom.Contract

open Bytes FixedPoint

/-! ## Words and their signed reading -/

def FitsInt256 (v : Int) : Prop := -2 ^ 255 ≤ v ∧ v < 2 ^ 255

instance (v : Int) : Decidable (FitsInt256 v) := inferInstanceAs (Decidable (_ ∧ _))

def FitsUint128 (v : Int) : Prop := 0 ≤ v ∧ v < 2 ^ 128

instance (v : Int) : Decidable (FitsUint128 v) := inferInstanceAs (Decidable (_ ∧ _))

def word (v : Int) : Nat := (v % 2 ^ 256).toNat

theorem word_cast (v : Int) : (word v : Int) = v % 2 ^ 256 :=
  Int.toNat_of_nonneg (Int.emod_nonneg v (by decide))

theorem toSigned_word_eq (u : Nat) :
    toSigned 32 u = if u < 2 ^ 255 then (u : Int) else (u : Int) - 2 ^ 256 := by
  simp only [toSigned]
  norm_num

theorem fitsInt256_toSigned {u : Nat} (hu : u < 2 ^ 256) : FitsInt256 (toSigned 32 u) := by
  rw [toSigned_word_eq, FitsInt256]
  split <;> omega

/-- The word of a value within `2 ^ 255` of the `int256` range reads as the value brought back
into the range: itself if it fits, shifted by `2 ^ 256` otherwise. -/
theorem toSigned_word {v : Int} (hlo : -(2 ^ 256 + 2 ^ 255) ≤ v) (hhi : v < 2 ^ 256 + 2 ^ 255) :
    toSigned 32 (word v) =
      if v < -2 ^ 255 then v + 2 ^ 256 else if v < 2 ^ 255 then v else v - 2 ^ 256 := by
  have hw := word_cast v
  rw [toSigned_word_eq]
  split_ifs <;> omega

theorem toSigned_word_of_fits {v : Int} (h : FitsInt256 v) : toSigned 32 (word v) = v := by
  obtain ⟨hlo, hhi⟩ := h
  rw [toSigned_word (by omega) (by omega), if_neg (by omega), if_pos hhi]

theorem word_toSigned {u : Nat} (hu : u < 2 ^ 256) : word (toSigned 32 u) = u := by
  have hw := word_cast (toSigned 32 u)
  rw [toSigned_word_eq] at hw ⊢
  split_ifs at hw ⊢ <;> omega

theorem word_natCast {u : Nat} (hu : u < 2 ^ 256) : word u = u := by
  have hw := word_cast u
  omega

theorem wrapAdd_word (a b : Int) : wrapAdd 256 (word a) (word b) = word (a + b) := by
  have ha := word_cast a
  have hb := word_cast b
  have hab := word_cast (a + b)
  unfold wrapAdd
  omega

theorem wrapSub_word (a b : Int) : wrapSub 256 (word a) (word b) = word (a - b) := by
  have ha := word_cast a
  have hb := word_cast b
  have hab := word_cast (a - b)
  unfold wrapSub
  omega

theorem wrapAdd_eq_word {x y : Nat} (hx : x < 2 ^ 256) (hy : y < 2 ^ 256) :
    wrapAdd 256 x y = word (toSigned 32 x + y) := by
  rw [← wrapAdd_word, word_toSigned hx, word_natCast hy]

theorem wrapSub_eq_word {x y : Nat} (hx : x < 2 ^ 256) (hy : y < 2 ^ 256) :
    wrapSub 256 x y = word (toSigned 32 x - y) := by
  rw [← wrapSub_word, word_toSigned hx, word_natCast hy]

/-! ## `MixedSignLib` -/

namespace MixedSignLib

/-- `add(int256 x, uint256 y)`: `z := add(x, y)`, reverting when `slt(z, x)`. -/
def add (x y : Nat) : Except Revert Nat :=
  let z := wrapAdd 256 x y
  if toSigned 32 z < toSigned 32 x then throw .arithmeticOverflowUnderflow else pure z

/-- `sub(int256 x, uint256 y)`: `z := sub(x, y)`, reverting when `sgt(z, x)`. -/
def sub (x y : Nat) : Except Revert Nat :=
  let z := wrapSub 256 x y
  if toSigned 32 x < toSigned 32 z then throw .arithmeticOverflowUnderflow else pure z

/-- The guard of the two `uint128` functions: revert when `shr(128, z)` is not zero. -/
def checkUint128 (z : Nat) : Except Revert Nat :=
  if z >>> 128 ≠ 0 then throw .arithmeticOverflowUnderflow else pure z

/-- `add(uint128 x, int128 y)`: `z := add(x, y)` on the word of `x` and the sign-extended word
of `y`. -/
def addUint128 (x y : Nat) : Except Revert Nat := checkUint128 (wrapAdd 256 x y)

/-- `sub(uint128 x, int128 y)`: `z := sub(x, y)` on the word of `x` and the sign-extended word
of `y`. -/
def subUint128 (x y : Nat) : Except Revert Nat := checkUint128 (wrapSub 256 x y)

section Int256

variable {x y : Nat}

theorem add_eq (hx : x < 2 ^ 256) (hy : y < 2 ^ 256) :
    add x y = if FitsInt256 (toSigned 32 x + y) then .ok (word (toSigned 32 x + y))
      else throw .arithmeticOverflowUnderflow := by
  have hfx := fitsInt256_toSigned hx
  unfold FitsInt256 at hfx
  have hread := @toSigned_word (toSigned 32 x + y) (by omega) (by omega)
  unfold add
  rw [wrapAdd_eq_word hx hy]
  dsimp only
  -- the exact sum is at least `-2 ^ 255`; the wrapped sum reads below `x` exactly when the
  -- exact sum passed `2 ^ 255`, so that a `y` of `2 ^ 255` or more wraps back only if it fits
  by_cases hfit : FitsInt256 (toSigned 32 x + y)
  · rw [if_pos hfit, toSigned_word_of_fits hfit, if_neg (by omega)]
    rfl
  · have h : ¬(-2 ^ 255 ≤ toSigned 32 x + y ∧ toSigned 32 x + y < 2 ^ 255) := hfit
    have hz : toSigned 32 (word (toSigned 32 x + y)) = toSigned 32 x + y - 2 ^ 256 := by
      rw [hread, if_neg (by omega), if_neg (by omega)]
    rw [if_neg hfit, hz, if_pos (by omega)]

theorem sub_eq (hx : x < 2 ^ 256) (hy : y < 2 ^ 256) :
    sub x y = if FitsInt256 (toSigned 32 x - y) then .ok (word (toSigned 32 x - y))
      else throw .arithmeticOverflowUnderflow := by
  have hfx := fitsInt256_toSigned hx
  unfold FitsInt256 at hfx
  have hread := @toSigned_word (toSigned 32 x - y) (by omega) (by omega)
  unfold sub
  rw [wrapSub_eq_word hx hy]
  dsimp only
  by_cases hfit : FitsInt256 (toSigned 32 x - y)
  · rw [if_pos hfit, toSigned_word_of_fits hfit, if_neg (by omega)]
    rfl
  · have h : ¬(-2 ^ 255 ≤ toSigned 32 x - y ∧ toSigned 32 x - y < 2 ^ 255) := hfit
    have hz : toSigned 32 (word (toSigned 32 x - y)) = toSigned 32 x - y + 2 ^ 256 := by
      rw [hread, if_pos (by omega)]
    rw [if_neg hfit, hz, if_pos (by omega)]

end Int256

theorem checkUint128_word {v : Int} (hlo : -2 ^ 255 ≤ v) (hhi : v < 2 ^ 255) :
    checkUint128 (word v) = if FitsUint128 v then .ok v.toNat
      else throw .arithmeticOverflowUnderflow := by
  have hw := word_cast v
  have hshr : word v >>> 128 = 0 ↔ word v < 2 ^ 128 := by
    rw [Nat.shiftRight_eq_div_pow, Nat.div_eq_zero_iff_lt (Nat.two_pow_pos 128)]
  unfold checkUint128
  by_cases hfit : FitsUint128 v
  · have h := hfit
    unfold FitsUint128 at h
    rw [if_neg (by omega), if_pos hfit, word, Int.emod_eq_of_lt h.1 (by omega)]
    rfl
  · have h : ¬(0 ≤ v ∧ v < 2 ^ 128) := hfit
    rw [if_pos (by omega), if_neg hfit]

section Uint128

variable {x : Nat} {v : Int}

theorem addUint128_eq (hx : x < 2 ^ 128) (hlo : -2 ^ 127 ≤ v) (hhi : v < 2 ^ 127) :
    addUint128 x (word v) = if FitsUint128 (x + v) then .ok (x + v).toNat
      else throw .arithmeticOverflowUnderflow := by
  have hsum : wrapAdd 256 x (word v) = word (x + v) := by
    rw [← wrapAdd_word, word_natCast (by omega)]
  unfold addUint128
  rw [hsum, checkUint128_word (by omega) (by omega)]

theorem subUint128_eq (hx : x < 2 ^ 128) (hlo : -2 ^ 127 ≤ v) (hhi : v < 2 ^ 127) :
    subUint128 x (word v) = if FitsUint128 (x - v) then .ok (x - v).toNat
      else throw .arithmeticOverflowUnderflow := by
  have hdiff : wrapSub 256 x (word v) = word (x - v) := by
    rw [← wrapSub_word, word_natCast (by omega)]
  unfold subUint128
  rw [hdiff, checkUint128_word (by omega) (by omega)]

end Uint128

end MixedSignLib

/-! ## `DeltaTrackerLib` -/

/-- `DeltaTracker`: one transient `int256` word per asset. -/
structure DeltaTracker where
  deltas : Address → Nat

/-- A call of `DeltaTrackerLib.add` or `DeltaTrackerLib.sub` on an asset. -/
inductive DeltaUpdate where
  | add (asset : Address) (amount : Nat)
  | sub (asset : Address) (amount : Nat)
  deriving DecidableEq, Repr

namespace DeltaUpdate

def asset : DeltaUpdate → Address
  | .add asset _ | .sub asset _ => asset

def amount : DeltaUpdate → Nat
  | .add _ amount | .sub _ amount => amount

def change (asset : Address) : DeltaUpdate → Int
  | .add a amount => if a = asset then amount else 0
  | .sub a amount => if a = asset then -amount else 0

theorem change_of_ne {op : DeltaUpdate} {a : Address} (h : a ≠ op.asset) : op.change a = 0 := by
  cases op with
  | add b amount => exact if_neg (Ne.symm h)
  | sub b amount => exact if_neg (Ne.symm h)

end DeltaUpdate

/-- The exact sum of the changes a list of updates makes to the delta of `asset`. -/
def netDelta (asset : Address) (ops : List DeltaUpdate) : Int := (ops.map (·.change asset)).sum

@[simp] theorem netDelta_nil (asset : Address) : netDelta asset [] = 0 := rfl

@[simp] theorem netDelta_cons (asset : Address) (op : DeltaUpdate) (ops : List DeltaUpdate) :
    netDelta asset (op :: ops) = op.change asset + netDelta asset ops := List.sum_cons

namespace DeltaTracker

def init : DeltaTracker := ⟨fun _ => 0⟩

def get (self : DeltaTracker) (asset : Address) : Int := toSigned 32 (self.deltas asset)

def set (self : DeltaTracker) (asset : Address) (v : Int) : DeltaTracker :=
  ⟨Function.update self.deltas asset (word v)⟩

def add (self : DeltaTracker) (asset : Address) (amount : Nat) : Except Revert DeltaTracker := do
  let z ← MixedSignLib.add (self.deltas asset) amount
  pure ⟨Function.update self.deltas asset z⟩

/-- `DeltaTrackerLib.sub(self, asset, amount)`, which also returns the new delta. -/
def sub (self : DeltaTracker) (asset : Address) (amount : Nat) :
    Except Revert (Nat × DeltaTracker) := do
  let newDelta ← MixedSignLib.sub (self.deltas asset) amount
  pure (newDelta, ⟨Function.update self.deltas asset newDelta⟩)

def apply (self : DeltaTracker) : DeltaUpdate → Except Revert DeltaTracker
  | .add asset amount => self.add asset amount
  | .sub asset amount => Prod.snd <$> self.sub asset amount

/-- The updates of one transaction in order; the first revert reverts the transaction. -/
def run (self : DeltaTracker) : List DeltaUpdate → Except Revert DeltaTracker
  | [] => pure self
  | op :: ops => self.apply op >>= fun next => next.run ops

def WordValued (self : DeltaTracker) : Prop := ∀ asset, self.deltas asset < 2 ^ 256

theorem wordValued_init : init.WordValued := fun _ => Nat.two_pow_pos 256

theorem WordValued.fits_get {self : DeltaTracker} (h : self.WordValued) (asset : Address) :
    FitsInt256 (self.get asset) :=
  fitsInt256_toSigned (h asset)

theorem word_lt (v : Int) : word v < 2 ^ 256 := by
  have hw := word_cast v
  omega

theorem WordValued.set {self : DeltaTracker} (h : self.WordValued) (asset : Address) (v : Int) :
    (self.set asset v).WordValued := by
  intro b
  unfold DeltaTracker.set
  by_cases hb : b = asset
  · subst hb
    simpa using word_lt v
  · simpa [Function.update_of_ne hb] using h b

theorem get_set {self : DeltaTracker} {asset : Address} {v : Int} (hv : FitsInt256 v)
    (b : Address) : (self.set asset v).get b = if b = asset then v else self.get b := by
  unfold get DeltaTracker.set
  by_cases hb : b = asset
  · subst hb
    simp [toSigned_word_of_fits hv]
  · simp [hb]

section Step

variable {self : DeltaTracker} {asset : Address} {amount : Nat}

theorem add_eq (hw : self.WordValued) (hy : amount < 2 ^ 256) :
    self.add asset amount = if FitsInt256 (self.get asset + amount)
      then .ok (self.set asset (self.get asset + amount))
      else throw .arithmeticOverflowUnderflow := by
  unfold add
  rw [MixedSignLib.add_eq (hw asset) hy]
  unfold get
  split_ifs <;> rfl

theorem sub_eq (hw : self.WordValued) (hy : amount < 2 ^ 256) :
    self.sub asset amount = if FitsInt256 (self.get asset - amount)
      then .ok (word (self.get asset - amount), self.set asset (self.get asset - amount))
      else throw .arithmeticOverflowUnderflow := by
  unfold sub
  rw [MixedSignLib.sub_eq (hw asset) hy]
  unfold get
  split_ifs <;> rfl

theorem apply_eq (hw : self.WordValued) {op : DeltaUpdate} (hy : op.amount < 2 ^ 256) :
    self.apply op = if FitsInt256 (self.get op.asset + op.change op.asset)
      then .ok (self.set op.asset (self.get op.asset + op.change op.asset))
      else throw .arithmeticOverflowUnderflow := by
  cases op with
  | add a amount =>
    have hamt : amount < 2 ^ 256 := hy
    simp only [apply, DeltaUpdate.asset, DeltaUpdate.change, if_true]
    exact add_eq hw hamt
  | sub a amount =>
    have hamt : amount < 2 ^ 256 := hy
    simp only [apply, DeltaUpdate.asset, DeltaUpdate.change, if_true,
      ← sub_eq_add_neg]
    rw [sub_eq hw hamt]
    split <;> rfl

end Step

theorem apply_ok {self next : DeltaTracker} (hw : self.WordValued) {op : DeltaUpdate}
    (hy : op.amount < 2 ^ 256) (h : self.apply op = .ok next) :
    next.WordValued ∧ ∀ b, next.get b = self.get b + op.change b := by
  rw [apply_eq hw hy] at h
  split at h
  · rename_i hfit
    cases h
    refine ⟨hw.set _ _, fun b => ?_⟩
    rw [get_set hfit]
    split
    · subst b
      rfl
    · rw [DeltaUpdate.change_of_ne ‹_›, Int.add_zero]
  · cases h

theorem apply_isOk_iff {self : DeltaTracker} (hw : self.WordValued) {op : DeltaUpdate}
    (hy : op.amount < 2 ^ 256) :
    (∃ next, self.apply op = .ok next) ↔ ∀ b, FitsInt256 (self.get b + op.change b) := by
  rw [apply_eq hw hy]
  constructor
  · rintro ⟨next, h⟩ b
    split at h
    · by_cases hb : b = op.asset
      · subst hb
        assumption
      · rw [DeltaUpdate.change_of_ne hb, Int.add_zero]
        exact hw.fits_get b
    · cases h
  · intro h
    rw [if_pos (h op.asset)]
    exact ⟨_, rfl⟩

theorem add_ok {self next : DeltaTracker} (hw : self.WordValued) {asset : Address} {amount : Nat}
    (hy : amount < 2 ^ 256) (h : self.add asset amount = .ok next) :
    next.WordValued ∧ ∀ b, next.get b = self.get b + if asset = b then (amount : Int) else 0 :=
  apply_ok hw (show (DeltaUpdate.add asset amount).amount < 2 ^ 256 from hy) h

theorem sub_ok {self next : DeltaTracker} (hw : self.WordValued) {asset : Address}
    {amount z : Nat} (hy : amount < 2 ^ 256) (h : self.sub asset amount = .ok (z, next)) :
    next.WordValued ∧ (∀ b, next.get b = self.get b + if asset = b then -(amount : Int) else 0) ∧
      next.get asset = toSigned 32 z := by
  have happly : self.apply (.sub asset amount) = .ok next := by
    show Prod.snd <$> self.sub asset amount = .ok next
    rw [h]
    rfl
  obtain ⟨hw', hget⟩ := apply_ok hw (show (DeltaUpdate.sub asset amount).amount < 2 ^ 256 from hy)
    happly
  refine ⟨hw', hget, ?_⟩
  unfold sub at h
  obtain ⟨newDelta, -, h⟩ := Checked.bind_eq_ok.1 h
  cases h
  simp [get]

/-! ### Runs -/

theorem run_cons (self : DeltaTracker) (op : DeltaUpdate) (ops : List DeltaUpdate) :
    self.run (op :: ops) = self.apply op >>= fun next => next.run ops := rfl

section Run

variable {ops : List DeltaUpdate}

theorem run_get (hy : ∀ op ∈ ops, op.amount < 2 ^ 256) :
    ∀ {self next : DeltaTracker}, self.WordValued → self.run ops = .ok next →
      ∀ asset, next.get asset = self.get asset + netDelta asset ops := by
  induction ops with
  | nil =>
    intro self next _ h asset
    cases h
    simp
  | cons op ops ih =>
    intro self next hw h asset
    rw [run_cons] at h
    obtain ⟨mid, hmid, hrun⟩ := Checked.bind_eq_ok.1 h
    obtain ⟨hw', hget⟩ := apply_ok hw (hy op (by simp)) hmid
    rw [ih (fun o ho => hy o (by simp [ho])) hw' hrun, hget, netDelta_cons, Int.add_assoc]

theorem forall_take_cons (P : Address → Int → Prop) (op : DeltaUpdate) :
    (∀ n asset, P asset (netDelta asset ((op :: ops).take n))) ↔
      (∀ asset, P asset 0) ∧ ∀ n asset, P asset (op.change asset + netDelta asset (ops.take n)) := by
  constructor
  · intro h
    exact ⟨fun asset => by simpa using h 0 asset, fun n asset => by simpa using h (n + 1) asset⟩
  · rintro ⟨h0, h1⟩ (_ | n) asset
    · simpa using h0 asset
    · simpa using h1 n asset

theorem run_isOk_iff (hy : ∀ op ∈ ops, op.amount < 2 ^ 256) :
    ∀ {self : DeltaTracker}, self.WordValued →
      ((∃ next, self.run ops = .ok next) ↔
        ∀ n asset, FitsInt256 (self.get asset + netDelta asset (ops.take n))) := by
  induction ops with
  | nil =>
    intro self hw
    simp only [List.take_nil, netDelta_nil, Int.add_zero]
    exact ⟨fun _ _ asset => hw.fits_get asset, fun _ => ⟨self, rfl⟩⟩
  | cons op ops ih =>
    intro self hw
    rw [forall_take_cons (fun asset d => FitsInt256 (self.get asset + d))]
    have hop := hy op (by simp)
    have hstart : ∀ asset, FitsInt256 (self.get asset + 0) := fun asset => by
      simpa using hw.fits_get asset
    by_cases hstep : ∃ mid, self.apply op = .ok mid
    · -- the update went through: the rest of the run decides, from the moved deltas
      obtain ⟨mid, hmid⟩ := hstep
      obtain ⟨hw', hget⟩ := apply_ok hw hop hmid
      have hrest := ih (fun o ho => hy o (by simp [ho])) hw'
      simp only [hget, Int.add_assoc] at hrest
      rw [run_cons, hmid, Checked.ok_bind, hrest]
      exact ⟨fun h => ⟨hstart, h⟩, fun h => h.2⟩
    · -- the update reverted, and with it the run; its own prefix is out of range
      have hnot := mt (apply_isOk_iff hw hop).2 hstep
      simp only [not_forall] at hnot
      obtain ⟨b, hb⟩ := hnot
      constructor
      · rintro ⟨next, h⟩
        obtain ⟨mid, hmid, -⟩ := Checked.bind_eq_ok.1 h
        exact absurd ⟨mid, hmid⟩ hstep
      · rintro ⟨-, h⟩
        exact absurd (by simpa using h 0 b) hb

end Run

@[simp] theorem get_init (asset : Address) : init.get asset = 0 := rfl

end DeltaTracker

/-- Each of the four `MixedSignLib` functions returns the exact result or reverts exactly when it
leaves its range; so a transaction's tracker updates, from the zero deltas it starts with, either
revert, exactly when a partial sum of some asset's updates leaves the `int256` range, or leave
every asset's delta at the exact sum of its updates. -/
theorem mixedSign_exact_or_reverts :
    (∀ x y : Nat, x < 2 ^ 256 → y < 2 ^ 256 →
      MixedSignLib.add x y = if FitsInt256 (toSigned 32 x + y)
        then .ok (word (toSigned 32 x + y)) else throw .arithmeticOverflowUnderflow) ∧
    (∀ x y : Nat, x < 2 ^ 256 → y < 2 ^ 256 →
      MixedSignLib.sub x y = if FitsInt256 (toSigned 32 x - y)
        then .ok (word (toSigned 32 x - y)) else throw .arithmeticOverflowUnderflow) ∧
    (∀ (x : Nat) (v : Int), x < 2 ^ 128 → -2 ^ 127 ≤ v → v < 2 ^ 127 →
      MixedSignLib.addUint128 x (word v) = if FitsUint128 (x + v)
        then .ok (x + v).toNat else throw .arithmeticOverflowUnderflow) ∧
    (∀ (x : Nat) (v : Int), x < 2 ^ 128 → -2 ^ 127 ≤ v → v < 2 ^ 127 →
      MixedSignLib.subUint128 x (word v) = if FitsUint128 (x - v)
        then .ok (x - v).toNat else throw .arithmeticOverflowUnderflow) ∧
    ∀ ops : List DeltaUpdate, (∀ op ∈ ops, op.amount < 2 ^ 256) →
      ((∃ next, DeltaTracker.init.run ops = .ok next) ↔
        ∀ n asset, FitsInt256 (netDelta asset (ops.take n))) ∧
      ∀ next, DeltaTracker.init.run ops = .ok next → ∀ asset, next.get asset = netDelta asset ops := by
  refine ⟨fun _ _ => MixedSignLib.add_eq, fun _ _ => MixedSignLib.sub_eq,
    fun _ _ => MixedSignLib.addUint128_eq, fun _ _ => MixedSignLib.subUint128_eq, ?_⟩
  intro ops hy
  constructor
  · simpa using DeltaTracker.run_isOk_iff hy DeltaTracker.wordValued_init
  · intro next h asset
    simpa using DeltaTracker.run_get hy DeltaTracker.wordValued_init h asset

end Angstrom.Contract
