import Mathlib

/-!
# Lists with a one-based index map

A registry that keeps its entries in an array and finds them through a map from key to position
removes an entry by moving the last entry into its slot (`swapRemove`), so that the array stays
dense. `IsIndexMap idx keys` says that `idx` is the one-based index map of the duplicate-free
list `keys`: `idx k = j + 1` for the key at `j`, and `0` for a key that is absent. Appending a
fresh key (`IsIndexMap.push`, `IsIndexMap.insertNew`) and swap-removing a key while moving the last key's index
(`IsIndexMap.swapRemove`) keep the map right, and a linear search finds a key at its index
(`IsIndexMap.findIdx?_eq`). An index map determines its list (`IsIndexMap.unique`), so a
registry that erases a key and moves the later keys down (`IsIndexMap.eraseIdx`) agrees with one
that swap-removes only when one of the last two keys goes (`eraseIdx_eq_swapRemove_iff`).

A map to `Option Nat` that finds each key at its zero-based position (`IsPosMap`), as a hash map
from key to index does, survives appending a fresh key (`IsPosMap.push`), and writing every
position of a duplicate-free list over a map that knew no other key rebuilds it for that list
(`isPosMap_foldl_zipIdx`).
-/

namespace IndexedList

variable {α : Type}

/-- Remove the element at `i`: the last element is written over it, then the last slot is
dropped. -/
def swapRemove (l : List α) (i : Nat) : List α :=
  match l.getLast? with
  | none => l
  | some last => (if i + 1 < l.length then l.set i last else l).dropLast

theorem getLast?_eq_getElem (l : List α) (h : 0 < l.length) :
    l.getLast? = some l[l.length - 1] := by
  rw [List.getLast?_eq_getElem?]
  simp [List.getElem?_eq_getElem (by omega : l.length - 1 < l.length)]

theorem swapRemove_eq (l : List α) {i : Nat} (hi : i < l.length) :
    swapRemove l i = (l.set i l[l.length - 1]).dropLast := by
  rw [swapRemove, getLast?_eq_getElem l (by omega)]
  dsimp only
  split
  · rfl
  · -- `i` is the last index: writing the last element over itself changes nothing
    have hlast : i = l.length - 1 := by omega
    subst hlast
    simp

@[simp] theorem length_swapRemove (l : List α) (i : Nat) :
    (swapRemove l i).length = l.length - 1 := by
  unfold swapRemove
  split
  · rename_i h; simp [List.getLast?_eq_none_iff.1 h]
  · split <;> simp

theorem map_swapRemove {β : Type} (f : α → β) (l : List α) (i : Nat) :
    (swapRemove l i).map f = swapRemove (l.map f) i := by
  unfold swapRemove
  rw [List.getLast?_map]
  cases l.getLast? with
  | none => rfl
  | some last =>
    simp only [Option.map_some, List.length_map]
    split <;> simp [List.map_dropLast, List.map_set]

theorem getElem_swapRemove (l : List α) {i j : Nat} (hi : i < l.length)
    (hj : j < (swapRemove l i).length) :
    (swapRemove l i)[j] =
      if j = i then l[l.length - 1] else l.get ⟨j, by rw [length_swapRemove] at hj; omega⟩ := by
  rw [List.getElem_of_eq (swapRemove_eq l hi), List.getElem_dropLast, List.getElem_set]
  by_cases hji : j = i
  · simp [hji]
  · simp [hji, Ne.symm hji]

theorem mem_of_mem_swapRemove {l : List α} {i : Nat} {a : α} (h : a ∈ swapRemove l i) : a ∈ l := by
  unfold swapRemove at h
  split at h
  · exact h
  · rename_i last hlast
    have hmem := List.mem_of_mem_dropLast h
    split at hmem
    · rcases List.mem_or_eq_of_mem_set hmem with hl | rfl
      · exact hl
      · exact List.mem_of_getLast? hlast
    · exact hmem

theorem nodup_swapRemove {l : List α} (h : l.Nodup) {i : Nat} (hi : i < l.length) :
    (swapRemove l i).Nodup := by
  rw [List.nodup_iff_injective_get]
  intro ⟨a, ha⟩ ⟨b, hb⟩ hab
  simp only [List.get_eq_getElem, getElem_swapRemove l hi] at hab
  simp only [length_swapRemove] at ha hb
  have key : ∀ {x y : Nat} (hx : x < l.length) (hy : y < l.length), l[x] = l[y] → x = y :=
    fun hx hy he => (List.Nodup.getElem_inj_iff h).1 he
  simp only [Fin.mk.injEq]
  split_ifs at hab with h1 h2 h2
  · omega
  · have := key _ _ hab; omega
  · have := key _ _ hab; omega
  · exact key _ _ hab

def insertNew [DecidableEq α] (k : α) (l : List α) : List α := if k ∈ l then l else l ++ [k]

variable {κ : Type}

/-- `idx` is the one-based index map of the duplicate-free list `keys`. -/
structure IsIndexMap (idx : κ → Nat) (keys : List κ) : Prop where
  nodup : keys.Nodup
  getElem : ∀ (j : Nat) (hj : j < keys.length), idx keys[j] = j + 1
  absent : ∀ k, k ∉ keys → idx k = 0

theorem isIndexMap_nil : IsIndexMap (fun _ : κ => 0) [] :=
  ⟨List.nodup_nil, fun _ hj => absurd hj (Nat.not_lt_zero _), fun _ _ => rfl⟩

variable {idx : κ → Nat} {keys : List κ}

theorem IsIndexMap.eq_zero_iff (h : IsIndexMap idx keys) (k : κ) : idx k = 0 ↔ k ∉ keys := by
  constructor
  · intro hk hmem
    obtain ⟨j, hj, rfl⟩ := List.mem_iff_getElem.1 hmem
    have := h.getElem j hj
    omega
  · exact h.absent k

theorem IsIndexMap.eq_succ_iff (h : IsIndexMap idx keys) (k : κ) (j : Nat) :
    idx k = j + 1 ↔ ∃ hj : j < keys.length, keys[j] = k := by
  constructor
  · intro hk
    have hmem : k ∈ keys := by
      by_contra hnot
      rw [h.absent k hnot] at hk
      omega
    obtain ⟨j', hj', rfl⟩ := List.mem_iff_getElem.1 hmem
    have := h.getElem j' hj'
    have hjj : j' = j := by omega
    subst hjj
    exact ⟨hj', rfl⟩
  · rintro ⟨hj, rfl⟩
    exact h.getElem j hj

theorem IsIndexMap.push [DecidableEq κ] (h : IsIndexMap idx keys) {k : κ} (hk : idx k = 0) :
    IsIndexMap (Function.update idx k (keys.length + 1)) (keys ++ [k]) := by
  have hnot : k ∉ keys := (h.eq_zero_iff k).1 hk
  refine ⟨List.nodup_append.2 ⟨h.nodup, List.nodup_singleton k, ?_⟩, ?_, ?_⟩
  · intro a ha b hb hab
    simp only [List.mem_singleton] at hb
    subst hb; subst hab
    exact hnot ha
  · intro j hj
    simp only [List.length_append, List.length_singleton] at hj
    by_cases hjl : j < keys.length
    · have hne : keys[j] ≠ k := fun heq => hnot (heq ▸ List.getElem_mem hjl)
      rw [List.getElem_append_left hjl, Function.update_of_ne hne]
      exact h.getElem j hjl
    · have hjeq : j = keys.length := by omega
      subst hjeq
      simp
  · intro k' hk'
    simp only [List.mem_append, List.mem_singleton, not_or] at hk'
    rw [Function.update_of_ne hk'.2]
    exact h.absent k' hk'.1

theorem IsIndexMap.insertNew [DecidableEq κ] (h : IsIndexMap idx keys) (k : κ) :
    IsIndexMap (if idx k = 0 then Function.update idx k (keys.length + 1) else idx)
      (insertNew k keys) := by
  by_cases hk : idx k = 0
  · rw [if_pos hk, IndexedList.insertNew, if_neg ((h.eq_zero_iff k).1 hk)]
    exact h.push hk
  · rw [if_neg hk, IndexedList.insertNew, if_pos (not_not.1 (mt (h.eq_zero_iff k).2 hk))]
    exact h

/-- Removing the key at `i` by moving the last key into its place: the last key takes index
`i + 1` unless it is the one removed, and the removed key loses its index. -/
theorem IsIndexMap.swapRemove [DecidableEq κ] (h : IsIndexMap idx keys) {i : Nat}
    (hi : i < keys.length) :
    IsIndexMap
      (Function.update
        (if i + 1 < keys.length then Function.update idx keys[keys.length - 1] (i + 1) else idx)
        keys[i] 0)
      (swapRemove keys i) := by
  have key : ∀ {x y : Nat} (hx : x < keys.length) (hy : y < keys.length), keys[x] = keys[y] →
      x = y := fun hx hy he => (List.Nodup.getElem_inj_iff h.nodup).1 he
  refine ⟨nodup_swapRemove h.nodup hi, ?_, ?_⟩
  · intro j hj
    rw [getElem_swapRemove keys hi, List.get_eq_getElem]
    simp only [length_swapRemove] at hj
    by_cases hji : j = i
    · -- the last key, moved into slot `i`
      subst hji
      have hil : j + 1 < keys.length := by omega
      rw [if_pos rfl, if_pos hil, Function.update_of_ne (fun he => by have := key _ _ he; omega),
        Function.update_self]
    · -- a key that stays where it was
      rw [if_neg hji]
      have hne : keys[j] ≠ keys[i] := fun he => hji (key _ _ he)
      rw [Function.update_of_ne hne]
      by_cases hil : i + 1 < keys.length
      · have hne' : keys[j] ≠ keys[keys.length - 1] := fun he => by have := key _ _ he; omega
        rw [if_pos hil, Function.update_of_ne hne']
        exact h.getElem j (by omega)
      · rw [if_neg hil]
        exact h.getElem j (by omega)
  · intro k hk
    by_cases hki : k = keys[i]
    · rw [hki, Function.update_self]
    · rw [Function.update_of_ne hki]
      have hnot : k ∉ keys := by
        intro hmem
        obtain ⟨j, hj, rfl⟩ := List.mem_iff_getElem.1 hmem
        apply hk
        by_cases hjl : j + 1 < keys.length
        · refine List.mem_iff_getElem.2 ⟨j, by simp; omega, ?_⟩
          rw [getElem_swapRemove keys hi, if_neg (fun he => hki (by subst he; rfl)),
            List.get_eq_getElem]
        · have hjlast : j = keys.length - 1 := by omega
          have hil : i ≠ j := fun he => hki (by subst he; rfl)
          refine List.mem_iff_getElem.2 ⟨i, by simp; omega, ?_⟩
          rw [getElem_swapRemove keys hi, if_pos rfl]
          simp [hjlast]
      by_cases hil : i + 1 < keys.length
      · have hne : k ≠ keys[keys.length - 1] := fun he => hnot (he ▸ List.getElem_mem _)
        rw [if_pos hil, Function.update_of_ne hne]
        exact h.absent k hnot
      · rw [if_neg hil]
        exact h.absent k hnot

theorem IsIndexMap.unique {keys' : List κ} (h : IsIndexMap idx keys) (h' : IsIndexMap idx keys') :
    keys = keys' := by
  have sub : ∀ {l l' : List κ}, IsIndexMap idx l → IsIndexMap idx l' →
      ∀ j (hj : j < l.length), ∃ hj' : j < l'.length, l'[j] = l[j] := by
    intro l l' hl hl' j hj
    exact (hl'.eq_succ_iff _ j).1 (hl.getElem j hj)
  have hlen : keys.length = keys'.length := by
    apply Nat.le_antisymm
    · by_contra hlt
      obtain ⟨hj, -⟩ := sub h h' (keys'.length) (by omega)
      omega
    · by_contra hlt
      obtain ⟨hj, -⟩ := sub h' h (keys.length) (by omega)
      omega
  apply List.ext_getElem hlen
  intro j hj hj'
  obtain ⟨_, he⟩ := sub h h' j hj
  exact he.symm

theorem IsIndexMap.eraseIdx [DecidableEq κ] (h : IsIndexMap idx keys) {i : Nat}
    (hi : i < keys.length) :
    IsIndexMap (Function.update (fun k => if idx k > i + 1 then idx k - 1 else idx k) keys[i] 0)
      (keys.eraseIdx i) := by
  have key : ∀ {x y : Nat} (hx : x < keys.length) (hy : y < keys.length), keys[x] = keys[y] →
      x = y := fun hx hy he => (List.Nodup.getElem_inj_iff h.nodup).1 he
  refine ⟨h.nodup.eraseIdx i, ?_, ?_⟩
  · intro j hj
    have hlen := List.length_eraseIdx_of_lt hi
    rw [List.getElem_eraseIdx]
    split
    · -- a key before the erased one keeps its index
      rename_i hji
      rw [Function.update_of_ne (fun he => by have := key _ _ he; omega), h.getElem j (by omega),
        if_neg (by omega)]
    · -- a key after it moves down
      rename_i hji
      rw [Function.update_of_ne (fun he => by have := key _ _ he; omega),
        h.getElem (j + 1) (by omega), if_pos (by omega)]
      rfl
  · intro k hk
    by_cases hki : k = keys[i]
    · rw [hki, Function.update_self]
    · rw [Function.update_of_ne hki]
      have hnot : k ∉ keys := by
        intro hmem
        obtain ⟨j, hj, rfl⟩ := List.mem_iff_getElem.1 hmem
        exact hk (List.mem_eraseIdx_iff_getElem.2 ⟨j, hj, fun he => hki (by subst he; rfl), rfl⟩)
      simp [h.absent k hnot]

theorem eraseIdx_eq_swapRemove_iff {l : List α} (hnd : l.Nodup) {i : Nat} (hi : i < l.length) :
    l.eraseIdx i = swapRemove l i ↔ l.length ≤ i + 2 := by
  have hlen : (l.eraseIdx i).length = (swapRemove l i).length := by
    rw [List.length_eraseIdx_of_lt hi, length_swapRemove]
  constructor
  · intro heq
    by_contra hlt
    have hj : i < (l.eraseIdx i).length := by rw [List.length_eraseIdx_of_lt hi]; omega
    have h1 := List.getElem_of_eq heq hj
    rw [List.getElem_eraseIdx, dif_neg (Nat.lt_irrefl i), getElem_swapRemove l hi, if_pos rfl] at h1
    have := (List.Nodup.getElem_inj_iff hnd).1 h1
    omega
  · intro hle
    apply List.ext_getElem hlen
    intro j hj hj'
    rw [List.getElem_eraseIdx, getElem_swapRemove l hi]
    rw [List.length_eraseIdx_of_lt hi] at hj
    split
    · rename_i hji
      rw [if_neg (by omega), List.get_eq_getElem]
    · rename_i hji
      have hji' : j = i := by omega
      subst hji'
      rw [if_pos rfl]
      congr 1
      omega
theorem IsIndexMap.findIdx?_eq [DecidableEq κ] (h : IsIndexMap idx keys) (k : κ) :
    keys.findIdx? (fun x => x == k) = if idx k = 0 then none else some (idx k - 1) := by
  by_cases hk : idx k = 0
  · rw [if_pos hk, List.findIdx?_eq_none_iff]
    intro x hx
    have hnot := (h.eq_zero_iff k).1 hk
    simpa using fun he : x = k => hnot (he ▸ hx)
  · rw [if_neg hk]
    obtain ⟨j, hj⟩ : ∃ j, idx k = j + 1 := ⟨idx k - 1, by omega⟩
    obtain ⟨hjl, hkj⟩ := (h.eq_succ_iff k j).1 hj
    rw [hj, Nat.add_sub_cancel, List.findIdx?_eq_some_iff_getElem]
    refine ⟨hjl, by simp [hkj], fun m hm => ?_⟩
    have hne : keys[m] ≠ keys[j] := fun he =>
      absurd ((List.Nodup.getElem_inj_iff h.nodup).1 he) (by omega)
    simpa [hkj] using hne

/-! ## Position maps -/

/-- `pos` finds each key of `keys` at its position and finds nothing else. -/
def IsPosMap (pos : κ → Option Nat) (keys : List κ) : Prop :=
  ∀ k i, pos k = some i ↔ keys[i]? = some k

variable {pos : κ → Option Nat}

theorem IsPosMap.eq_none (h : IsPosMap pos keys) {k : κ} (hk : k ∉ keys) : pos k = none := by
  cases hpos : pos k with
  | none => rfl
  | some i => exact absurd (List.mem_of_getElem? ((h k i).1 hpos)) hk

theorem IsPosMap.eq_idxOf [DecidableEq κ] (h : IsPosMap pos keys) {k : κ} (hk : k ∈ keys) :
    pos k = some (keys.idxOf k) :=
  (h k _).2 (List.getElem?_idxOf hk)

theorem IsPosMap.push [DecidableEq κ] (h : IsPosMap pos keys) {k : κ} (hk : k ∉ keys) :
    IsPosMap (Function.update pos k (some keys.length)) (keys ++ [k]) := by
  intro k' i
  by_cases hk' : k' = k
  · -- the new key sits at the old length, and nowhere before it
    subst hk'
    rw [Function.update_self, Option.some.injEq]
    constructor
    · rintro rfl
      simp
    · intro hi
      by_contra hne
      rcases Nat.lt_or_gt_of_ne hne with hlt | hgt
      · have : (keys ++ [k']).length ≤ i := by simp; omega
        simp [List.getElem?_eq_none this] at hi
      · rw [List.getElem?_append_left hgt] at hi
        exact hk (List.mem_of_getElem? hi)
  · rw [Function.update_of_ne hk', h k' i]
    rcases Nat.lt_or_ge i keys.length with hlt | hge
    · rw [List.getElem?_append_left hlt]
    · -- past the old end only the new key is found, and it is not `k'`
      rw [List.getElem?_eq_none hge, List.getElem?_append_right hge]
      rcases Nat.eq_or_lt_of_le hge with heq | hgt
      · simp [← heq, Ne.symm hk']
      · simp [List.getElem?_eq_none (show [k].length ≤ i - keys.length by simp; omega)]

theorem foldl_update_zipIdx [DecidableEq κ] {keys : List κ} (hnd : keys.Nodup)
    (m : κ → Option Nat) (n : Nat) (k : κ) :
    (keys.zipIdx n).foldl (fun (idx : κ → Option Nat) p => Function.update idx p.1 (some p.2)) m k =
      if k ∈ keys then some (n + keys.idxOf k) else m k := by
  induction keys generalizing m n with
  | nil => simp
  | cons a keys ih =>
    obtain ⟨ha, hnd⟩ := List.nodup_cons.1 hnd
    rw [List.zipIdx_cons, List.foldl_cons, ih hnd]
    by_cases hka : k = a
    · -- the head's write is the last one for it: the tail does not hold it
      subst hka
      simp [ha]
    · simp only [List.mem_cons, hka, false_or, List.idxOf_cons_ne _ (Ne.symm hka),
        Function.update_of_ne hka]
      split_ifs <;> simp only [Nat.succ_eq_add_one, Option.some.injEq]
      omega

theorem isPosMap_foldl_zipIdx [DecidableEq κ] {keys : List κ} (hnd : keys.Nodup)
    {m : κ → Option Nat} (hm : ∀ k, k ∉ keys → m k = none) :
    IsPosMap (keys.zipIdx.foldl (fun idx p => Function.update idx p.1 (some p.2)) m) keys := by
  intro k i
  rw [foldl_update_zipIdx hnd]
  by_cases hk : k ∈ keys
  · rw [if_pos hk, Nat.zero_add, Option.some.injEq]
    constructor
    · rintro rfl
      exact List.getElem?_idxOf hk
    · intro hi
      obtain ⟨hlt, rfl⟩ := List.getElem?_eq_some_iff.1 hi
      exact hnd.idxOf_getElem i hlt
  · rw [if_neg hk, hm k hk]
    exact iff_of_false (by simp) fun hi => hk (List.mem_of_getElem? hi)

theorem idxOf_lt_idxOf [DecidableEq κ] [Preorder κ] {keys : List κ}
    (hs : keys.Pairwise (· < ·)) {a b : κ} (ha : a ∈ keys) (hb : b ∈ keys) (hab : a < b) :
    keys.idxOf a < keys.idxOf b := by
  have hia := List.idxOf_lt_length_of_mem ha
  have hib := List.idxOf_lt_length_of_mem hb
  by_contra hge
  rcases Nat.eq_or_lt_of_le (Nat.le_of_not_lt hge) with heq | hlt
  · have : a = b := by
      rw [← List.getElem_idxOf hia, ← List.getElem_idxOf hib]
      simp only [heq]
    exact lt_irrefl a (this ▸ hab)
  · have := List.pairwise_iff_getElem.1 hs _ _ hib hia hlt
    rw [List.getElem_idxOf, List.getElem_idxOf] at this
    exact lt_asymm hab this

end IndexedList
