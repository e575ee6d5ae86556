import Mathlib

/-!
# Big-endian byte strings and zero-padded windows

Byte strings are `List UInt8`. `toBE n v` is the `n`-byte big-endian form of `v`, `ofBE` reads a
byte string back as a number, and `window cd off n` is the `n` bytes of `cd` from offset `off`,
zero beyond its end, as the EVM's `calldataload` reads them. The lemmas are the ones a decoder
proof needs: the width of an encoding, reading an encoding back, and that a window over
`front ++ mid ++ back` at `front.length` sees exactly `mid` (`window_append`).

`IsAt cd off bs` says that `bs` stands in `cd` from `off`; a decoder proof splits it along the
parts of an encoding (`isAt_append`). `toSigned n u` is the value of an `n`-byte two's complement
number.
-/

namespace Bytes

def toBE : Nat → Nat → List UInt8
  | 0, _ => []
  | n + 1, v => toBE n (v / 256) ++ [UInt8.ofNat (v % 256)]

def ofBE (bs : List UInt8) : Nat := bs.foldl (fun acc b => acc * 256 + b.toNat) 0

def window (cd : List UInt8) (off n : Nat) : List UInt8 :=
  (List.range n).map fun i => cd.getD (off + i) 0

@[simp] theorem toBE_length (n v : Nat) : (toBE n v).length = n := by
  induction n generalizing v with
  | zero => rfl
  | succ n ih => simp [toBE, ih]

theorem ofBE_append_single (bs : List UInt8) (b : UInt8) :
    ofBE (bs ++ [b]) = ofBE bs * 256 + b.toNat := by
  simp [ofBE, List.foldl_append]

theorem foldl_ofBE (ys : List UInt8) (a : Nat) :
    ys.foldl (fun acc b => acc * 256 + b.toNat) a = a * 256 ^ ys.length + ofBE ys := by
  induction ys generalizing a with
  | nil => simp [ofBE]
  | cons b ys ih =>
    simp only [List.foldl_cons, ofBE, Nat.zero_mul, Nat.zero_add] at ih ⊢
    rw [ih, ih b.toNat, List.length_cons, Nat.pow_succ]
    ring

theorem ofBE_cons (b : UInt8) (bs : List UInt8) :
    ofBE (b :: bs) = b.toNat * 256 ^ bs.length + ofBE bs := by
  simpa [ofBE] using foldl_ofBE bs b.toNat

theorem ofBE_append (xs ys : List UInt8) : ofBE (xs ++ ys) = ofBE xs * 256 ^ ys.length + ofBE ys := by
  rw [ofBE, List.foldl_append, foldl_ofBE]
  rfl

theorem ofBE_lt (bs : List UInt8) : ofBE bs < 256 ^ bs.length := by
  induction bs with
  | nil => simp [ofBE]
  | cons b bs ih =>
    rw [ofBE_cons, List.length_cons, Nat.pow_succ]
    have hb : b.toNat + 1 ≤ 256 := b.toNat_lt
    calc b.toNat * 256 ^ bs.length + ofBE bs < b.toNat * 256 ^ bs.length + 256 ^ bs.length := by
          omega
      _ = (b.toNat + 1) * 256 ^ bs.length := by ring
      _ ≤ 256 * 256 ^ bs.length := Nat.mul_le_mul_right _ hb
      _ = 256 ^ bs.length * 256 := Nat.mul_comm _ _

theorem ofBE_toBE (n v : Nat) : ofBE (toBE n v) = v % 256 ^ n := by
  induction n generalizing v with
  | zero => simp [toBE, ofBE, Nat.mod_one]
  | succ n ih =>
    have hb : (UInt8.ofNat (v % 256)).toNat = v % 256 := by simp
    rw [toBE, ofBE_append_single, ih, hb, Nat.pow_succ', Nat.mod_mul]
    ring

theorem ofBE_toBE_of_lt {n v : Nat} (h : v < 256 ^ n) : ofBE (toBE n v) = v := by
  rw [ofBE_toBE, Nat.mod_eq_of_lt h]

@[simp] theorem window_length (cd : List UInt8) (off n : Nat) : (window cd off n).length = n := by
  simp [window]

theorem window_add (cd : List UInt8) (off m n : Nat) :
    window cd off (m + n) = window cd off m ++ window cd (off + m) n := by
  simp only [window, List.range_add, List.map_append, List.map_map]
  congr 1
  apply List.map_congr_left
  intro i _
  simp [Nat.add_assoc]

theorem ofBE_window_div (cd : List UInt8) (off : Nat) {k n : Nat} (h : k ≤ n) :
    ofBE (window cd off n) / 256 ^ (n - k) = ofBE (window cd off k) := by
  obtain ⟨j, rfl⟩ := Nat.exists_eq_add_of_le h
  have hpos : 0 < 256 ^ j := Nat.pow_pos (by decide)
  have hlt : ofBE (window cd (off + k) j) < 256 ^ j := by simpa using ofBE_lt (window cd (off + k) j)
  rw [window_add, ofBE_append, window_length, Nat.add_sub_cancel_left, Nat.mul_comm,
    Nat.mul_add_div hpos, Nat.div_eq_of_lt hlt, Nat.add_zero]

theorem window_append (front mid back : List UInt8) :
    window (front ++ mid ++ back) front.length mid.length = mid := by
  apply List.ext_getElem (by simp)
  intro i hi _
  simp only [window, List.getElem_map, List.getElem_range, List.getD_eq_getElem?_getD]
  rw [List.append_assoc, List.getElem?_append_right (by omega), Nat.add_sub_cancel_left,
    List.getElem?_append_left (by simpa using hi)]
  simp [List.getElem?_eq_getElem (by simpa using hi)]

theorem window_append_right (xs ys : List UInt8) {off : Nat} (n : Nat) (h : xs.length ≤ off) :
    window (xs ++ ys) off n = window ys (off - xs.length) n := by
  simp only [window]
  apply List.map_congr_left
  intro i _
  rw [List.getD_eq_getElem?_getD, List.getD_eq_getElem?_getD,
    List.getElem?_append_right (by omega)]
  congr 2
  omega

theorem window_append_left (xs ys : List UInt8) {off n : Nat} (h : off + n ≤ xs.length) :
    window (xs ++ ys) off n = window xs off n := by
  simp only [window]
  apply List.map_congr_left
  intro i hi
  rw [List.mem_range] at hi
  rw [List.getD_eq_getElem?_getD, List.getD_eq_getElem?_getD,
    List.getElem?_append_left (by omega)]

theorem window_self (xs : List UInt8) : window xs 0 xs.length = xs := by
  simpa using window_append [] xs []

theorem window_append_zero (mid back : List UInt8) : window (mid ++ back) 0 mid.length = mid := by
  simpa using window_append [] mid back

@[simp] theorem window_toBE_append (n v : Nat) (ys : List UInt8) :
    window (toBE n v ++ ys) 0 n = toBE n v := by
  simpa using window_append_zero (toBE n v) ys

theorem window_flatten_toBE (k : Nat) (vs : List Nat) (back : List UInt8) {i : Nat}
    (hi : i < vs.length) :
    window ((vs.map (toBE k)).flatten ++ back) (k * i) k = toBE k vs[i] := by
  induction vs generalizing i with
  | nil => simp at hi
  | cons v vs ih =>
    cases i with
    | zero => simp
    | succ i =>
      have hlen : (toBE k v).length ≤ k * (i + 1) := by
        rw [toBE_length, Nat.mul_succ]
        omega
      rw [List.map_cons, List.flatten_cons, List.append_assoc, window_append_right _ _ _ hlen,
        toBE_length, show k * (i + 1) - k = k * i by rw [Nat.mul_succ]; omega]
      exact ih (by simpa using hi)

/-! ## Bytes at an offset -/

def IsAt (cd : List UInt8) (off : Nat) (bs : List UInt8) : Prop := window cd off bs.length = bs

theorem isAt_append {cd : List UInt8} {off : Nat} {xs ys : List UInt8} :
    IsAt cd off (xs ++ ys) ↔ IsAt cd off xs ∧ IsAt cd (off + xs.length) ys := by
  unfold IsAt
  rw [List.length_append, window_add]
  constructor
  · intro h
    exact List.append_inj h (by simp)
  · rintro ⟨hxs, hys⟩
    rw [hxs, hys]

theorem isAt_nil (cd : List UInt8) (off : Nat) : IsAt cd off [] := by
  simp [IsAt, window]

theorem isAt_middle (front mid back : List UInt8) : IsAt (front ++ mid ++ back) front.length mid :=
  window_append front mid back

theorem window_of_isAt {cd : List UInt8} {off : Nat} {bs : List UInt8} (h : IsAt cd off bs) :
    window cd off bs.length = bs := h

/-! ## Two's complement -/

def toSigned (n u : Nat) : Int := if u < 256 ^ n / 2 then u else (u : Int) - (256 ^ n : Nat)

theorem toSigned_emod {n : Nat} (hn : 0 < n) {v : Int} (hlo : -((256 ^ n / 2 : Nat) : Int) ≤ v)
    (hhi : v < ((256 ^ n / 2 : Nat) : Int)) :
    toSigned n (v % ((256 ^ n : Nat) : Int)).toNat = v := by
  have heven : 256 ^ n = 2 * (256 ^ n / 2) := by
    obtain ⟨m, rfl⟩ := Nat.exists_eq_add_of_lt hn
    rw [Nat.pow_succ]
    omega
  unfold toSigned
  generalize 256 ^ n = M at heven hlo hhi ⊢
  rcases Int.lt_or_le v 0 with hneg | hnonneg
  · -- a negative value is stored as `v + 256 ^ n`, in the upper half
    have hmod : v % (M : Int) = v + M := by
      rw [← Int.add_emod_right, Int.emod_eq_of_lt (by omega) (by omega)]
    rw [hmod, if_neg (by omega)]
    omega
  · rw [Int.emod_eq_of_lt hnonneg (by omega), if_pos (by omega)]
    omega

end Bytes
