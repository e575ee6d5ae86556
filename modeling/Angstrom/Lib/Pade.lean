import Angstrom.Lib.Bytes
import Angstrom.Lib.BitPack
import Angstrom.Lib.Checked

/-!
# PADE: the encoding and the loops that read it back

PADE, the packed ABI-decodable encoding, as its specification describes it:

* a primitive is its packed ABI form, `n` bytes big-endian, in two's complement when signed
  (`uint`, `int`);
* a list is the byte length of its encoded items in three bytes, then the items (`list`);
* a struct is its variant map, then its fields in order. The map packs the variant of each enum
  field, least significant first in field order, into as few bytes as hold them, little-endian
  (`variantMap`). An enum field puts only its variant's inner value among the fields (`option`
  for an `Option`).

Every enum field encoded here has two variants, so the map has one bit per enum field.

Decoders read such data with two loops: a fixed number of items one after another (`readCount`),
or items until the reader reaches the list's end (`readUntil`). Each has a rule that turns "one
item's reader reads its encoding back" into "the loop reads the list back and stops at its end"
(`readCount_eq`, `readUntil_eq`).
-/

namespace Pade

open Bytes

def LIST_MAX_LENGTH_BYTES : Nat := 3

def fullBytes (bits : Nat) : Nat := (bits + 7) / 8

def uint (n v : Nat) : List UInt8 := toBE n v

def int (n : Nat) (v : Int) : List UInt8 := toBE n (v % ((256 ^ n : Nat) : Int)).toNat

def list (items : List (List UInt8)) : List UInt8 :=
  toBE LIST_MAX_LENGTH_BYTES items.flatten.length ++ items.flatten

def bytes (bs : List UInt8) : List UInt8 := list (bs.map fun b => [b])

def variantMap (variants : List Bool) : List UInt8 :=
  (toBE (fullBytes variants.length) (BitPack.pack variants)).reverse

def option {α : Type} (enc : α → List UInt8) : Option α → List UInt8
  | none => []
  | some a => enc a

def ListFits (items : List (List UInt8)) : Prop :=
  items.flatten.length < 256 ^ LIST_MAX_LENGTH_BYTES

instance (items : List (List UInt8)) : Decidable (ListFits items) :=
  inferInstanceAs (Decidable (_ < _))

@[simp] theorem length_uint (n v : Nat) : (uint n v).length = n := toBE_length n v

@[simp] theorem length_int (n : Nat) (v : Int) : (int n v).length = n := toBE_length n _

theorem bytes_eq (bs : List UInt8) : bytes bs = toBE LIST_MAX_LENGTH_BYTES bs.length ++ bs := by
  have hflat : (bs.map fun b => [b]).flatten = bs := by
    induction bs with
    | nil => rfl
    | cons b bs ih => simp [ih]
  simp only [bytes, list, hflat]

@[simp] theorem option_none {α : Type} (enc : α → List UInt8) : option enc none = [] := rfl

@[simp] theorem option_some {α : Type} (enc : α → List UInt8) (a : α) :
    option enc (some a) = enc a := rfl

theorem variantMap_eq_singleton {variants : List Bool} (hpos : 0 < variants.length)
    (hle : variants.length ≤ 8) :
    variantMap variants = [UInt8.ofNat (BitPack.pack variants)] := by
  have hone : fullBytes variants.length = 1 := by
    unfold fullBytes
    omega
  have hlt : BitPack.pack variants < 256 :=
    lt_of_lt_of_le (BitPack.pack_lt variants) (Nat.pow_le_pow_right (n := 2) (by decide) hle)
  simp [variantMap, hone, toBE, Nat.mod_eq_of_lt hlt]

theorem variantMap_eq_toBE {variants : List Bool} (hpos : 0 < variants.length)
    (hle : variants.length ≤ 8) : variantMap variants = toBE 1 (BitPack.pack variants) := by
  have hone : fullBytes variants.length = 1 := by
    unfold fullBytes
    omega
  simp [variantMap, hone, toBE]

theorem toSigned_ofBE_int {n : Nat} (hn : 0 < n) {v : Int}
    (hlo : -((256 ^ n / 2 : Nat) : Int) ≤ v) (hhi : v < ((256 ^ n / 2 : Nat) : Int)) :
    toSigned n (ofBE (int n v)) = v := by
  have hlt : (v % ((256 ^ n : Nat) : Int)).toNat < 256 ^ n := by
    have hpos : (0 : Int) < ((256 ^ n : Nat) : Int) := by
      have : 0 < 256 ^ n := Nat.pow_pos (by decide)
      omega
    have := Int.emod_lt_of_pos v hpos
    omega
  rw [int, ofBE_toBE_of_lt hlt, toSigned_emod hn hlo hhi]

theorem length_le_length_flatten {α : Type} {enc : α → List UInt8} (hne : ∀ x, enc x ≠ [])
    (xs : List α) : xs.length ≤ (xs.map enc).flatten.length := by
  induction xs with
  | nil => simp
  | cons x xs ih =>
    have hx : 0 < (enc x).length := List.length_pos_iff.2 (hne x)
    simp only [List.map_cons, List.flatten_cons, List.length_append, List.length_cons]
    omega

theorem length_flatten_map {α : Type} {enc : α → List UInt8} {size : Nat}
    (hsize : ∀ x, (enc x).length = size) (xs : List α) :
    (xs.map enc).flatten.length = size * xs.length := by
  induction xs with
  | nil => simp
  | cons x xs ih =>
    rw [List.map_cons, List.flatten_cons, List.length_append, ih, hsize, List.length_cons,
      Nat.mul_succ, Nat.add_comm]

/-! ## Reading items at fixed strides -/

theorem map_range_eq {α : Type} {cd : List UInt8} {enc : α → List UInt8} {size : Nat}
    (hsize : ∀ x, (enc x).length = size) {read : Nat → α} {P : α → Prop}
    (hread : ∀ off x, P x → IsAt cd off (enc x) → read off = x) (xs : List α)
    (hP : ∀ x ∈ xs, P x) {off : Nat} (hat : IsAt cd off (xs.map enc).flatten) :
    (List.range xs.length).map (fun i => read (off + i * size)) = xs := by
  induction xs generalizing off with
  | nil => rfl
  | cons x xs ih =>
    rw [List.map_cons, List.flatten_cons, isAt_append, hsize] at hat
    have hx : read off = x := hread off x (hP x List.mem_cons_self) hat.1
    have hxs := ih (fun y hy => hP y (List.mem_cons_of_mem x hy)) hat.2
    rw [List.length_cons, List.range_succ_eq_map, List.map_cons, List.map_map]
    have hshift : ((fun i => read (off + i * size)) ∘ Nat.succ) =
        fun i => read (off + size + i * size) := by
      funext i
      simp only [Function.comp_apply, Nat.succ_mul]
      congr 1
      omega
    rw [hshift, hxs, Nat.zero_mul, Nat.add_zero, hx]

/-! ## Reading a fixed number of items -/

section ReadCount

variable {α : Type} (step : Nat → Nat × α)

def readCount : Nat → Nat → Nat × List α
  | 0, reader => (reader, [])
  | count + 1, reader =>
    let (reader, item) := step reader
    let (reader, items) := readCount count reader
    (reader, item :: items)

theorem readCount_eq {cd : List UInt8} {enc : α → List UInt8} {P : α → Prop}
    (hstep : ∀ reader x, P x → IsAt cd reader (enc x) → step reader = (reader + (enc x).length, x))
    (xs : List α) (hP : ∀ x ∈ xs, P x) {reader : Nat} (hat : IsAt cd reader (xs.map enc).flatten) :
    readCount step xs.length reader = (reader + (xs.map enc).flatten.length, xs) := by
  induction xs generalizing reader with
  | nil => simp [readCount]
  | cons x xs ih =>
    rw [List.map_cons, List.flatten_cons, isAt_append] at hat
    have hx := hstep reader x (hP x List.mem_cons_self) hat.1
    have hxs := ih (fun y hy => hP y (List.mem_cons_of_mem x hy)) hat.2
    simp only [List.length_cons, readCount, hx, hxs, List.map_cons, List.flatten_cons,
      List.length_append, Nat.add_assoc]

theorem readCount_fst {k : Nat} (hstep : ∀ reader, (step reader).1 = reader + k)
    (count reader : Nat) : (readCount step count reader).1 = reader + count * k := by
  induction count generalizing reader with
  | zero => simp [readCount]
  | succ count ih =>
    simp only [readCount]
    rw [ih, hstep, Nat.succ_mul]
    omega

end ReadCount

/-! ## Reading items until the end of a list -/

section ReadUntil

variable {ε α : Type} (step : Nat → Nat → Except ε (Nat × α)) (stop : Nat) (endless : ε)

/-- The loop `while (reader != end) reader = step(reader)` of a decoder, where `step k` reads the
`k`-th item. It runs at most `fuel` times: a run that has not stopped by then passed the end, and
the loop it models never stops, so it fails with `endless`. -/
def readUntil : Nat → Nat → Nat → Except ε (Nat × List α)
  | 0, _, reader => if reader = stop then .ok (reader, []) else .error endless
  | fuel + 1, k, reader =>
    if reader = stop then .ok (reader, [])
    else do
      let (reader, item) ← step k reader
      let (reader, items) ← readUntil fuel (k + 1) reader
      return (reader, item :: items)

/-- A step that reads back the `k`-th item from its encoding, with encodings that are never
empty: from the start of the items' encodings, the loop reads back the items and stops at their
end, given one round per item. -/
theorem readUntil_eq {cd : List UInt8} {enc : α → List UInt8} {P : Nat → α → Prop}
    (hstep : ∀ k reader x, P k x → IsAt cd reader (enc x) →
      step k reader = .ok (reader + (enc x).length, x))
    (hne : ∀ x, enc x ≠ []) (xs : List α) {k reader fuel : Nat} (hfuel : xs.length ≤ fuel)
    (hP : ∀ i (hi : i < xs.length), P (k + i) (xs.get ⟨i, hi⟩))
    (hat : IsAt cd reader (xs.map enc).flatten)
    (hstop : stop = reader + (xs.map enc).flatten.length) :
    readUntil step stop endless fuel k reader = .ok (stop, xs) := by
  induction xs generalizing k reader fuel with
  | nil =>
    subst hstop
    cases fuel <;> simp [readUntil]
  | cons x xs ih =>
    obtain ⟨fuel, rfl⟩ : ∃ f, fuel = f + 1 := ⟨fuel - 1, by simp at hfuel; omega⟩
    rw [List.map_cons, List.flatten_cons, isAt_append] at hat
    have hlen : 0 < (enc x).length := List.length_pos_iff.2 (hne x)
    have hne_stop : reader ≠ stop := by
      rw [hstop, List.map_cons, List.flatten_cons, List.length_append]
      omega
    have hx := hstep k reader x (by simpa using hP 0 (by simp)) hat.1
    have hxs := ih (k := k + 1) (show xs.length ≤ fuel by simpa using hfuel)
      (fun i hi => by simpa [Nat.add_right_comm, Nat.add_assoc] using hP (i + 1) (by simpa using hi))
      hat.2 (by rw [hstop]; simp [Nat.add_assoc])
    simp only [readUntil, if_neg hne_stop, hx, Checked.ok_bind] at hxs ⊢
    rw [hxs]
    rfl

end ReadUntil

end Pade
