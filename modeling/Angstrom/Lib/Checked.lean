import Mathlib

/-!
# Checked machine arithmetic

Solidity 0.8 arithmetic on `uint` words reverts instead of wrapping: an addition, subtraction or
multiplication whose exact result leaves `[0, 2 ^ w)` reverts with `Panic(0x11)`, a division by
zero with `Panic(0x12)`. Here a word is a natural number and a computation that may revert lives
in `Except ε`, for any error type `ε` that can carry the two panics (`HasPanic`).

Every operation has one lemma for the case that succeeds and one for the case that reverts, so
that proofs about a program built from them never unfold the operation itself.
-/

namespace Checked

/-- The panics of checked arithmetic and arrays: `Panic(0x11)`, `Panic(0x12)`, `Panic(0x31)`
and `Panic(0x32)`. -/
inductive Panic where
  | overflowUnderflow
  | divisionByZero
  | emptyArrayPop
  | arrayOutOfBounds
  deriving DecidableEq, Repr

/-- An error type that can report the panics of checked arithmetic. -/
class HasPanic (ε : Type) where
  panic : Panic → ε

/-! Sequencing of computations that may revert. -/

@[simp] theorem ok_bind {ε α β : Type} (a : α) (f : α → Except ε β) : (Except.ok a >>= f) = f a := rfl

@[simp] theorem error_bind {ε α β : Type} (e : ε) (f : α → Except ε β) :
    (Except.error e >>= f) = .error e := rfl

@[simp] theorem map_ok {ε α β : Type} (f : α → β) (a : α) :
    (f <$> Except.ok a : Except ε β) = .ok (f a) := rfl

@[simp] theorem map_error {ε α β : Type} (f : α → β) (e : ε) :
    (f <$> Except.error e : Except ε β) = .error e := rfl

@[simp] theorem throw_bind {ε α β : Type} (e : ε) (f : α → Except ε β) :
    (throw e >>= f : Except ε β) = throw e := rfl

@[simp] theorem map_throw {ε α β : Type} (f : α → β) (e : ε) :
    (f <$> throw e : Except ε β) = throw e := rfl

@[simp] theorem throw_ne_ok {ε α : Type} (e : ε) (a : α) : (throw e : Except ε α) ≠ .ok a :=
  nofun

@[simp] theorem pure_eq_ok {ε α : Type} {a b : α} : (pure a : Except ε α) = .ok b ↔ a = b :=
  ⟨fun h => by cases h; rfl, fun h => h ▸ rfl⟩

theorem map_eq_ok {ε α β : Type} {x : Except ε α} {f : α → β} {b : β} :
    f <$> x = .ok b ↔ ∃ a, x = .ok a ∧ f a = b := by
  cases x <;> simp

theorem bind_eq_ok {ε α β : Type} {x : Except ε α} {f : α → Except ε β} {b : β} :
    x >>= f = .ok b ↔ ∃ a, x = .ok a ∧ f a = .ok b := by
  cases x <;> simp

theorem exists_eq_ok_of_isOk {ε α : Type} {x : Except ε α} (h : x.isOk = true) : ∃ a, x = .ok a := by
  cases x with
  | error e => cases h
  | ok a => exact ⟨a, rfl⟩

variable {ε : Type} [HasPanic ε]

def add (w x y : Nat) : Except ε Nat :=
  if x + y < 2 ^ w then .ok (x + y) else .error (HasPanic.panic .overflowUnderflow)

def sub (x y : Nat) : Except ε Nat :=
  if y ≤ x then .ok (x - y) else .error (HasPanic.panic .overflowUnderflow)

def mul (w x y : Nat) : Except ε Nat :=
  if x * y < 2 ^ w then .ok (x * y) else .error (HasPanic.panic .overflowUnderflow)

def div (x y : Nat) : Except ε Nat :=
  if y = 0 then .error (HasPanic.panic .divisionByZero) else .ok (x / y)

variable {w x y : Nat}

@[simp] theorem add_of_lt (h : x + y < 2 ^ w) : (add w x y : Except ε Nat) = .ok (x + y) :=
  if_pos h

theorem add_of_le (h : 2 ^ w ≤ x + y) :
    (add w x y : Except ε Nat) = .error (HasPanic.panic .overflowUnderflow) :=
  if_neg (Nat.not_lt.2 h)

@[simp] theorem sub_of_le (h : y ≤ x) : (sub x y : Except ε Nat) = .ok (x - y) := if_pos h

theorem sub_of_lt (h : x < y) :
    (sub x y : Except ε Nat) = .error (HasPanic.panic .overflowUnderflow) :=
  if_neg (Nat.not_le.2 h)

@[simp] theorem mul_of_lt (h : x * y < 2 ^ w) : (mul w x y : Except ε Nat) = .ok (x * y) :=
  if_pos h

theorem mul_of_le (h : 2 ^ w ≤ x * y) :
    (mul w x y : Except ε Nat) = .error (HasPanic.panic .overflowUnderflow) :=
  if_neg (Nat.not_lt.2 h)

@[simp] theorem div_of_pos (h : 0 < y) : (div x y : Except ε Nat) = .ok (x / y) :=
  if_neg (Nat.pos_iff_ne_zero.1 h)

def index {α : Type} (l : List α) (i : Nat) : Except ε α :=
  if h : i < l.length then .ok l[i] else .error (HasPanic.panic .arrayOutOfBounds)

@[simp] theorem index_of_lt {α : Type} {l : List α} {i : Nat} (h : i < l.length) :
    (index l i : Except ε α) = .ok l[i] := dif_pos h

theorem index_eq_ok {α : Type} {l : List α} {i : Nat} {a : α} :
    (index l i : Except ε α) = .ok a ↔ ∃ h : i < l.length, l[i] = a := by
  unfold index
  split_ifs with h <;> simp [h]

def pop {α : Type} (l : List α) : Except ε (List α) :=
  if l = [] then .error (HasPanic.panic .emptyArrayPop) else .ok l.dropLast

@[simp] theorem pop_of_ne_nil {α : Type} {l : List α} (h : l ≠ []) :
    (pop l : Except ε (List α)) = .ok l.dropLast := if_neg h

theorem add_eq_ok {z : Nat} : (add w x y : Except ε Nat) = .ok z ↔ x + y < 2 ^ w ∧ z = x + y := by
  unfold add
  split_ifs with h <;> simp [h, eq_comm]

theorem sub_eq_ok {z : Nat} : (sub x y : Except ε Nat) = .ok z ↔ y ≤ x ∧ z = x - y := by
  unfold sub
  split_ifs with h <;> simp [h, eq_comm]

theorem sub_isOk_iff : (sub x y : Except ε Nat).isOk = true ↔ y ≤ x := by
  unfold sub
  split_ifs with h <;> simp [Except.isOk, Except.toBool, h]

end Checked
