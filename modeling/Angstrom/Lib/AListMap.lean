import Mathlib

/-!
# Rewriting and filtering the values of an association list

A hash map updated in place by iterating over its values (`iter_mut`) keeps its keys and applies
the update to the value of each. On `AList` this is `mapValues`; a lookup afterwards is the
updated old value (`lookup_mapValues`). A hash map's `retain` keeps the entries whose value passes
a test: `filterValues`, after which a lookup finds the old value only if it passed
(`lookup_filterValues`). Removing a key from a map is `erase`, whose lookups are those of the
old map at every other key (`lookup_erase_eq_ite`).
-/

namespace AList

variable {α : Type} {β : α → Type}

def mapValues (f : ∀ a, β a → β a) (s : AList β) : AList β :=
  ⟨s.entries.map (Sigma.map id f), List.NodupKeys.map₂ f s.entries s.nodupKeys⟩

@[simp] theorem keys_mapValues (f : ∀ a, β a → β a) (s : AList β) :
    (s.mapValues f).keys = s.keys :=
  List.map₂_keys f s.entries

@[simp] theorem lookup_mapValues [DecidableEq α] (f : ∀ a, β a → β a) (s : AList β) (a : α) :
    (s.mapValues f).lookup a = (s.lookup a).map (f a) :=
  List.dlookup_map₂ a

def filterValues (p : ∀ a, β a → Bool) (s : AList β) : AList β :=
  ⟨s.entries.filter fun e => p e.1 e.2, s.nodupKeys.sublist List.filter_sublist⟩

theorem lookup_filterValues [DecidableEq α] (p : ∀ a, β a → Bool) (s : AList β) (a : α) :
    (s.filterValues p).lookup a = (s.lookup a).filter (p a) := by
  obtain ⟨l, hl⟩ := s
  simp only [filterValues, lookup]
  induction l with
  | nil => rfl
  | cons e l ih =>
    obtain ⟨k, v⟩ := e
    have hrest := ih (List.nodupKeys_of_nodupKeys_cons hl)
    by_cases hk : a = k
    · -- the first entry is the one of `a`, and no later entry has its key
      subst hk
      have hnot : a ∉ (l.filter fun e => p e.1 e.2).keys := fun hmem =>
        List.notMem_keys_of_nodupKeys_cons hl ((List.filter_sublist.map Sigma.fst).subset hmem)
      rw [List.filter_cons, List.dlookup_cons_eq]
      split
      · rename_i hp
        rw [List.dlookup_cons_eq, Option.filter_some, if_pos hp]
      · rename_i hp
        rw [List.dlookup_eq_none.2 hnot, Option.filter_some, if_neg hp]
    · -- the first entry is another key's, kept or not
      rw [List.filter_cons, List.dlookup_cons_ne l ⟨k, v⟩ hk, ← hrest]
      split
      · exact List.dlookup_cons_ne _ ⟨k, v⟩ hk
      · rfl

theorem mem_keys_filterValues [DecidableEq α] {p : ∀ a, β a → Bool} {s : AList β} {a : α} :
    a ∈ (s.filterValues p).keys ↔ ∃ b, s.lookup a = some b ∧ p a b = true := by
  rw [← mem_keys, ← lookup_isSome, lookup_filterValues, Option.isSome_filter]
  cases s.lookup a <;> simp

theorem lookup_erase_eq_ite [DecidableEq α] (s : AList β) (a b : α) :
    (s.erase a).lookup b = if b = a then none else s.lookup b := by
  split_ifs with h
  · subst h
    exact lookup_erase b s
  · exact lookup_erase_ne h

end AList
