import Angstrom.Contract.Basic
import Angstrom.Lib.BitPack

/-!
# Nonces and order-hash flags

`modules/OrderInvalidation.sol`. A standing order spends a nonce of its signer: the nonces of an
owner are bits of 256-bit words, the word of `nonce >> 8` at a slot hashed from the owner, the
slot tag and `nonce >> 8`, and the bit `nonce & 0xff`. `_invalidateNonce` flips the bit with `xor`
and reverts if the bit is then clear, that is, if it was set before. A flash or top-of-block order
sets a transient flag at a slot hashed from its order hash and signer, and reverts if it was
already set.

The hashes are parameters: `nonceSlot owner word` for the slot of a nonce word and
`orderSlot orderHash signer` for the flag of an order. No property of them is needed: the lemmas
say what a successful call read and wrote, whatever the slots are.
-/

namespace Angstrom.Contract

namespace OrderInvalidation

def UNORDERED_NONCES_SLOT : Nat := 0xdaa050e9

variable {σ τ δ : Type} [DecidableEq σ] [DecidableEq τ]

section Nonces

variable (nonceSlot : Address → Nat → σ)

/-- Whether the nonce of the owner is spent: its bit in its word of the bitmap. -/
def nonceUsed (bitmap : σ → Nat) (owner : Address) (nonce : Nat) : Bool :=
  (bitmap (nonceSlot owner (nonce >>> 8))).testBit (nonce &&& 0xff)

/-- `_invalidateNonce`: flip the nonce's bit, and revert with `NonceReuse` if it is then clear. -/
def invalidateNonce (bitmap : σ → Nat) (owner : Address) (nonce : Nat) : Except Revert (σ → Nat) :=
  let bitmapPtr := nonceSlot owner (nonce >>> 8)
  let flag := 1 <<< (nonce &&& 0xff)
  let updated := bitmap bitmapPtr ^^^ flag
  if updated &&& flag = 0 then throw .nonceReuse
  else pure (Function.update bitmap bitmapPtr updated)

theorem invalidateNonce_ok {bitmap bitmap' : σ → Nat} {owner : Address} {nonce : Nat}
    (h : invalidateNonce nonceSlot bitmap owner nonce = .ok bitmap') :
    nonceUsed nonceSlot bitmap owner nonce = false ∧ nonceUsed nonceSlot bitmap' owner nonce = true ∧
      ∀ o n, nonceUsed nonceSlot bitmap o n = true → nonceUsed nonceSlot bitmap' o n = true := by
  unfold invalidateNonce at h
  dsimp only at h
  rw [Nat.one_shiftLeft] at h
  split at h
  · simp at h
  rename_i hflag
  simp only [Checked.pure_eq_ok] at h
  subst h
  have hbit : (bitmap (nonceSlot owner (nonce >>> 8))).testBit (nonce &&& 0xff) = false := by
    rw [Nat.and_two_pow, BitPack.testBit_xor_two_pow] at hflag
    simpa using hflag
  refine ⟨hbit, ?_, ?_⟩
  · simp [nonceUsed, hbit]
  · intro o n hused
    unfold nonceUsed at hused ⊢
    by_cases hslot : nonceSlot o (n >>> 8) = nonceSlot owner (nonce >>> 8)
    · rw [hslot, Function.update_self, BitPack.testBit_xor_two_pow]
      rw [hslot] at hused
      have hne : (n &&& 0xff) ≠ (nonce &&& 0xff) := fun he => by
        rw [he, hbit] at hused
        exact Bool.false_ne_true hused
      simp [hused, hne]
    · rw [Function.update_of_ne hslot]
      exact hused

end Nonces

section OrderHashes

variable (orderSlot : δ → Address → τ)

/-- `_invalidateOrderHash`: set the transient flag of the order hash and its signer, reverting
with `OrderAlreadyExecuted` if it is set. The source's `from` is `signer` here. -/
def invalidateOrderHash (transient : τ → Bool) (orderHash : δ) (signer : Address) :
    Except Revert (τ → Bool) :=
  let slot := orderSlot orderHash signer
  if transient slot then throw .orderAlreadyExecuted
  else pure (Function.update transient slot true)

theorem invalidateOrderHash_ok {transient transient' : τ → Bool} {orderHash : δ}
    {signer : Address} (h : invalidateOrderHash orderSlot transient orderHash signer = .ok transient') :
    transient (orderSlot orderHash signer) = false ∧ transient' (orderSlot orderHash signer) = true ∧
      ∀ t, transient t = true → transient' t = true := by
  unfold invalidateOrderHash at h
  dsimp only at h
  split at h
  · simp at h
  rename_i hset
  simp only [Checked.pure_eq_ok] at h
  subst h
  refine ⟨by simpa using hset, by simp, fun t ht => ?_⟩
  by_cases hslot : t = orderSlot orderHash signer
  · simp [hslot]
  · rw [Function.update_of_ne hslot]
    exact ht

end OrderHashes

end OrderInvalidation

end Angstrom.Contract
