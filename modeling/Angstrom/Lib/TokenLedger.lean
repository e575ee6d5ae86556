import Mathlib

/-!
# Token ledgers

A ledger says how much of one token each holder has. `transfer` moves an amount from one holder
to another and fails when the sender has less, as the `transfer` and `transferFrom` of a standard
ERC-20 token do: it debits the sender and then credits the receiver, so that a transfer to oneself
changes nothing. Each holder's balance moves by exactly what it receives less what it sends
(`transfer_apply`), and a sum of entries kept beside a ledger, such as the books of a contract that
holds tokens for others, moves by the difference of the one entry written over (`sum_update`).
-/

namespace TokenLedger

variable {ι : Type} [DecidableEq ι]

def transfer (f : ι → ℕ) (src dst : ι) (amount : ℕ) : Option (ι → ℕ) :=
  if amount ≤ f src then
    let g := Function.update f src (f src - amount)
    some (Function.update g dst (g dst + amount))
  else none

variable {f g : ι → ℕ} {src dst : ι} {amount : ℕ}

theorem le_of_transfer (h : transfer f src dst amount = some g) : amount ≤ f src := by
  unfold transfer at h
  split_ifs at h with hle
  exact hle

theorem transfer_apply (h : transfer f src dst amount = some g) (i : ι) :
    (g i : ℤ) = f i - (if i = src then amount else 0) + (if i = dst then amount else 0) := by
  have hle := le_of_transfer h
  unfold transfer at h
  rw [if_pos hle] at h
  cases h
  by_cases hd : i = dst
  · subst hd
    by_cases hs : i = src
    · subst hs
      simp only [Function.update_self, if_true]
      omega
    · simp [hs]
  · by_cases hs : i = src
    · subst hs
      simp only [Function.update_of_ne hd, Function.update_self, if_true, if_neg hd]
      omega
    · simp [hs, hd]

theorem transfer_of_ne (h : transfer f src dst amount = some g) {i : ι} (hs : i ≠ src)
    (hd : i ≠ dst) : g i = f i := by
  have hi := transfer_apply h i
  rw [if_neg hs, if_neg hd] at hi
  omega

theorem sum_update [Fintype ι] (f : ι → ℕ) (i : ι) (v : ℕ) :
    ∑ j, (Function.update f i v j : ℤ) = ∑ j, (f j : ℤ) + v - f i := by
  have hsplit : ∀ h : ι → ℕ, ∑ j, (h j : ℤ) = h i + ∑ j ∈ Finset.univ.erase i, (h j : ℤ) :=
    fun h => (Finset.add_sum_erase _ _ (Finset.mem_univ i)).symm
  have hrest : ∑ j ∈ Finset.univ.erase i, (Function.update f i v j : ℤ) =
      ∑ j ∈ Finset.univ.erase i, (f j : ℤ) :=
    Finset.sum_congr rfl fun j hj => by rw [Function.update_of_ne (Finset.ne_of_mem_erase hj)]
  rw [hsplit, hsplit f, hrest, Function.update_self]
  ring

end TokenLedger
