import Angstrom.Lib.Bytes

/-!
# `CalldataReaderLib`

`types/CalldataReader.sol`. A `CalldataReader` is a raw offset into the calldata; every read loads
the 32-byte word at the offset (`calldataload`, zero past the end of the calldata), keeps its
leading bytes and advances the offset by their number. The unsigned reads differ only in their
width, so they are one definition `readUint` applied to each width; `readUint_val` says once what
any of them returns, and `readUint_of_isAt` what it returns over a field written big-endian.
-/

namespace Angstrom.Contract

open Bytes

/-- The calldata of a call. -/
abbrev Calldata := List UInt8

/-- `CalldataReader`: an offset into the calldata. -/
abbrev CalldataReader := Nat

/-- The EVM `calldataload(off)`: the 32 bytes from `off`, big-endian, zero past the end. -/
def calldataload (cd : Calldata) (off : Nat) : Nat := ofBE (window cd off 32)

/-- An unsigned read of `bytes` bytes: `shr(256 - 8 * bytes, calldataload(self))`, then advance. -/
def readUint (bytes : Nat) (cd : Calldata) (self : CalldataReader) : CalldataReader × Nat :=
  (self + bytes, calldataload cd self / 2 ^ (256 - 8 * bytes))

def readU8 (cd : Calldata) (self : CalldataReader) : CalldataReader × Nat := readUint 1 cd self

def readU16 (cd : Calldata) (self : CalldataReader) : CalldataReader × Nat := readUint 2 cd self

def readU32 (cd : Calldata) (self : CalldataReader) : CalldataReader × Nat := readUint 4 cd self

def readU40 (cd : Calldata) (self : CalldataReader) : CalldataReader × Nat := readUint 5 cd self

def readU64 (cd : Calldata) (self : CalldataReader) : CalldataReader × Nat := readUint 8 cd self

def readU128 (cd : Calldata) (self : CalldataReader) : CalldataReader × Nat := readUint 16 cd self

def readAddr (cd : Calldata) (self : CalldataReader) : CalldataReader × Nat := readUint 20 cd self

def readU160 (cd : Calldata) (self : CalldataReader) : CalldataReader × Nat := readUint 20 cd self

def readU256 (cd : Calldata) (self : CalldataReader) : CalldataReader × Nat := readUint 32 cd self

def readBool (cd : Calldata) (self : CalldataReader) : CalldataReader × Bool :=
  (self + 1, decide (0 < calldataload cd self / 2 ^ 248))

/-- `readI24`: `sar(232, calldataload(self))`. The arithmetic shift keeps the sign of the word,
which is the sign bit of its leading three bytes, so the value is those bytes in two's
complement. -/
def readI24 (cd : Calldata) (self : CalldataReader) : CalldataReader × Int :=
  (self + 3, toSigned 3 (calldataload cd self / 2 ^ 232))

def readBytes (cd : Calldata) (self : CalldataReader) : CalldataReader × List UInt8 :=
  let length := calldataload cd self / 2 ^ 232
  (self + 3 + length, window cd (self + 3) length)

/-- `readU24End`: a 3-byte length, then the reader past it and the end `reader + length`. -/
def readU24End (cd : Calldata) (self : CalldataReader) : CalldataReader × CalldataReader :=
  let len := calldataload cd self / 2 ^ 232
  (self + 3, self + 3 + len)

theorem readUint_val (cd : Calldata) (self : CalldataReader) {bytes : Nat} (h : bytes ≤ 32) :
    readUint bytes cd self = (self + bytes, ofBE (window cd self bytes)) := by
  have hpow : 2 ^ (256 - 8 * bytes) = 256 ^ (32 - bytes) := by
    rw [show (256 : Nat) = 2 ^ 8 by norm_num, ← Nat.pow_mul]
    congr 1
    omega
  simp only [readUint, calldataload, hpow, ofBE_window_div cd self h]

theorem readUint_lt (cd : Calldata) (self : CalldataReader) {bytes : Nat} (h : bytes ≤ 32) :
    (readUint bytes cd self).2 < 256 ^ bytes := by
  rw [readUint_val cd self h]
  simpa using ofBE_lt (window cd self bytes)

theorem readUint_of_isAt {cd : Calldata} {self : CalldataReader} {bytes v : Nat} (h : bytes ≤ 32)
    (hv : v < 256 ^ bytes) (hat : IsAt cd self (toBE bytes v)) :
    readUint bytes cd self = (self + bytes, v) := by
  have hw := window_of_isAt hat
  rw [toBE_length] at hw
  rw [readUint_val cd self h, hw, ofBE_toBE_of_lt hv]

theorem calldataload_div_u24 {cd : Calldata} {self : CalldataReader} {v : Nat} (hv : v < 256 ^ 3)
    (hat : IsAt cd self (toBE 3 v)) : calldataload cd self / 2 ^ 232 = v := by
  have hread := readUint_of_isAt (by decide) hv hat
  simp only [readUint, Prod.mk.injEq] at hread
  exact hread.2

theorem readU24End_of_isAt {cd : Calldata} {self : CalldataReader} {v : Nat} (hv : v < 256 ^ 3)
    (hat : IsAt cd self (toBE 3 v)) : readU24End cd self = (self + 3, self + 3 + v) := by
  simp only [readU24End, calldataload_div_u24 hv hat]

theorem readBytes_of_isAt {cd : Calldata} {self : CalldataReader} {bs : List UInt8}
    (hlen : bs.length < 256 ^ 3) (hat : IsAt cd self (toBE 3 bs.length ++ bs)) :
    readBytes cd self = (self + 3 + bs.length, bs) := by
  rw [isAt_append, toBE_length] at hat
  simp only [readBytes, calldataload_div_u24 hlen hat.1, window_of_isAt hat.2]

theorem readUint_toBE (front back : Calldata) {bytes v : Nat} (h : bytes ≤ 32)
    (hv : v < 256 ^ bytes) :
    readUint bytes (front ++ toBE bytes v ++ back) front.length =
      (front.length + bytes, v) := by
  rw [readUint_val _ _ h]
  have hw := window_append front (toBE bytes v) back
  rw [toBE_length] at hw
  rw [hw, ofBE_toBE_of_lt hv]

theorem readUint_flatten {k : Nat} (hk : k ≤ 32) (vs : List Nat) (back : Calldata) {i : Nat}
    (hi : i < vs.length) (hv : vs[i] < 256 ^ k) :
    readUint k ((vs.map (toBE k)).flatten ++ back) (k * i) = (k * i + k, vs[i]) := by
  rw [readUint_val _ _ hk, window_flatten_toBE k vs back hi, ofBE_toBE_of_lt hv]

end Angstrom.Contract
