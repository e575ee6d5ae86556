import Mathlib

/-!
# Leader selection

`crates/consensus/src/leader_selection.rs`: `WeightedRoundRobin`, Tendermint's weighted
round-robin. Every validator's priority grows by its voting power each round, the validator of
highest priority (ties to the higher peer id) proposes, and its priority falls by the total voting
power. Before each round of a catch-up the priorities are centred on their average and scaled
down when they spread too far. `ConsensusManager::new` builds the selection at the deploy block
and asks for the leader of the node's current height; `on_blockchain_state` asks again at each
new tip.

The validators are a `HashSet` keyed by peer id: here a list of distinct peer ids (the field
`nodup`). Every operation is the same for any order of that list: sums, maps, the update of one
peer, and a maximum under an order with no ties between distinct peers. A panic is `none`: the
empty validator set, and a block below the one the selection is at (the `u64` subtraction).
The `i64` priorities are integers and the `u64` voting powers naturals, which is the code's
arithmetic as long as no value leaves `i64` (the proportional runs show that none does,
`rounds_fair`); `/` on them truncates towards zero (`Int.tdiv`).

`choose_proposer` at the selection's own block, with no leader yet, runs one selection without
the centring and scaling of a catch-up. A node that starts at the deploy block takes that path,
one that starts later does not, and the two can disagree on later leaders
(`leader_depends_on_start_height`). Among nodes that start above the deploy block, the leader
of a block is a function of the validators, the deploy block and the block
(`runHistory_eq_canonical`).
-/

namespace Angstrom.Consensus

def PENALTY_FACTOR : Nat := 1125

def ONE_E3 : Nat := 1000

/-- `AngstromValidator`. -/
structure AngstromValidator where
  peerId : Nat
  votingPower : Nat
  priority : Int
  deriving DecidableEq, Repr

def AngstromValidator.new (name votingPower : Nat) : AngstromValidator :=
  ⟨name, votingPower * ONE_E3, 0⟩

/-- `HashSet::from_iter` of validators equal by peer id: the first of each peer id stays. -/
def dedupByPeer : List AngstromValidator → List AngstromValidator
  | [] => []
  | v :: vs => v :: (dedupByPeer vs).filter (·.peerId ≠ v.peerId)

theorem nodup_dedupByPeer (vs : List AngstromValidator) :
    ((dedupByPeer vs).map (·.peerId)).Nodup := by
  induction vs with
  | nil => simp [dedupByPeer]
  | cons v vs ih =>
    simp only [dedupByPeer, List.map_cons, List.nodup_cons, List.mem_map, List.mem_filter]
    refine ⟨fun ⟨w, ⟨_, hw⟩, he⟩ => by simp [he] at hw, ?_⟩
    exact ih.sublist (List.Sublist.map _ List.filter_sublist)

/-- `WeightedRoundRobin`; `nodup` says the validators form a set of peer ids. -/
@[ext] structure WeightedRoundRobin where
  validators : List AngstromValidator
  nodup : (validators.map (·.peerId)).Nodup
  newJoinerPenaltyFactor : Nat
  blockNumber : Nat
  lastProposer : Option Nat

namespace WeightedRoundRobin

/-- `WeightedRoundRobin::new`. -/
def new (validators : List AngstromValidator) (startBlock : Nat) : WeightedRoundRobin :=
  ⟨dedupByPeer validators, nodup_dedupByPeer validators, PENALTY_FACTOR, startBlock, none⟩

def mapValidators (s : WeightedRoundRobin) (f : AngstromValidator → AngstromValidator)
    (hf : ∀ v, (f v).peerId = v.peerId) : WeightedRoundRobin :=
  { s with
    validators := s.validators.map f
    nodup := by
      have : (s.validators.map f).map (·.peerId) = s.validators.map (·.peerId) := by
        simp [Function.comp_def, hf]
      exact this ▸ s.nodup }

@[simp] theorem mapValidators_validators (s : WeightedRoundRobin) (f) (hf) :
    (s.mapValidators f hf).validators = s.validators.map f := rfl

@[simp] theorem mapValidators_blockNumber (s : WeightedRoundRobin) (f) (hf) :
    (s.mapValidators f hf).blockNumber = s.blockNumber := rfl

@[simp] theorem mapValidators_lastProposer (s : WeightedRoundRobin) (f) (hf) :
    (s.mapValidators f hf).lastProposer = s.lastProposer := rfl

def totalVotingPower (s : WeightedRoundRobin) : Nat := (s.validators.map (·.votingPower)).sum

def priorityCmp (a b : AngstromValidator) : Ordering :=
  match compare a.priority b.priority with
  | .eq => compare a.peerId b.peerId
  | o => o

/-- `Iterator::max_by` with `priority`: the last of the maximal validators. -/
def maxByPriority : List AngstromValidator → Option AngstromValidator
  | [] => none
  | v :: vs => some (vs.foldl (fun best w => if priorityCmp best w = .gt then best else w) v)

/-- `HashSet::replace` of a validator of the set: the one with its peer id gives way to it. -/
def replace (s : WeightedRoundRobin) (w : AngstromValidator) : WeightedRoundRobin :=
  s.mapValidators (fun v => if v.peerId = w.peerId then w else v) (fun v => by split <;> simp_all)

/-- `proposer_selection`: every priority grows by its voting power, and the validator of highest
priority proposes and pays the total voting power; `none` for the empty set. -/
def proposerSelection (s : WeightedRoundRobin) : Option (WeightedRoundRobin × Nat) :=
  let total := s.totalVotingPower
  let grown := s.mapValidators (fun v => { v with priority := v.priority + v.votingPower })
    (fun _ => rfl)
  (maxByPriority grown.validators).map fun proposer =>
    (grown.replace { proposer with priority := proposer.priority - total }, proposer.peerId)

/-- `center_priorities`: the average priority, truncated, is taken from every priority. -/
def centerPriorities (s : WeightedRoundRobin) : WeightedRoundRobin :=
  let total : Int := (s.validators.map (·.priority)).sum
  let avgPriority := total.tdiv s.validators.length
  s.mapValidators (fun v => { v with priority := v.priority - avgPriority }) (fun _ => rfl)

/-- `i64::MIN` and `i64::MAX`, the starts of the folds of `scale_priorities`. -/
def i64Min : Int := -2 ^ 63
def i64Max : Int := 2 ^ 63 - 1

/-- `scale_priorities`: priorities that spread more than twice the total voting power are scaled
back to a spread of about that much. -/
def scalePriorities (s : WeightedRoundRobin) : WeightedRoundRobin :=
  let maxPriority := (s.validators.map (·.priority)).foldl max i64Min
  let minPriority := (s.validators.map (·.priority)).foldl min i64Max
  let diff := maxPriority - minPriority
  let threshold := 2 * (s.totalVotingPower : Int)
  if diff > threshold then
    let scale := (diff * ONE_E3).tdiv threshold
    s.mapValidators (fun v => { v with priority := (v.priority * ONE_E3).tdiv scale })
      (fun _ => rfl)
  else s

/-- One round of the catch-up loop of `choose_proposer`. -/
def round (s : WeightedRoundRobin) : Option (WeightedRoundRobin × Nat) :=
  s.centerPriorities.scalePriorities.proposerSelection

/-- The catch-up loop of `choose_proposer`: `n` rounds, each recording its leader as the last
proposer. -/
def catchUp : Nat → WeightedRoundRobin → Option Nat → Option (WeightedRoundRobin × Option Nat)
  | 0, s, leader => some (s, leader)
  | n + 1, s, _ =>
    (round s).bind fun (s, leader) => catchUp n { s with lastProposer := some leader } (some leader)

/-- `choose_proposer`: at the selection's own block, its last proposer, chosen now by one
selection if there is none yet; at a later block, the leader after one round per block. -/
def chooseProposer (s : WeightedRoundRobin) (blockNumber : Nat) :
    Option (WeightedRoundRobin × Option Nat) :=
  if blockNumber = s.blockNumber then
    match s.lastProposer with
    | none =>
      (s.proposerSelection).map fun (s, p) => ({ s with lastProposer := some p }, some p)
    | some p => some (s, some p)
  else if blockNumber < s.blockNumber then none
  else
    (catchUp (blockNumber - s.blockNumber) s none).map fun (s, leader) =>
      ({ s with blockNumber := blockNumber }, leader)

end WeightedRoundRobin

open WeightedRoundRobin

/-- The leaders a node computes: `ConsensusManager::new` at its first height, then
`on_blockchain_state` at each later tip. -/
def runHistory : WeightedRoundRobin → List Nat → Option (List (Option Nat))
  | _, [] => some []
  | s, h :: hs =>
    (s.chooseProposer h).bind fun (s, leader) => (runHistory s hs).map (leader :: ·)

def twoValidators : List AngstromValidator := [.new 1 1, .new 2 1]

/-- A node that starts at the deploy block `0` elects peer `2` there and peer `1` at block `1`;
a node that starts at block `1` elects peer `2` at block `1`. -/
theorem leader_depends_on_start_height :
    runHistory (.new twoValidators 0) [0, 1] = some [some 2, some 1] ∧
      runHistory (.new twoValidators 0) [1] = some [some 2] := by
  decide

/-! ## Nodes that start above the deploy block agree

A catch-up of `m + n` blocks is one of `m` blocks followed by one of `n` (`catchUp_add`), and no
round reads the block the selection is at (`round_setBlock`). So the state of a node that
started above the deploy block `d` and has seen block `h` is the catch-up from `d` to `h`
(`chooseProposer_canonical`), and by induction over the heights it sees, every leader it
computes is the one of that catch-up (`runHistory_eq_canonical`). -/

namespace WeightedRoundRobin

theorem centerPriorities_setBlock (s : WeightedRoundRobin) (b : Nat) :
    ({ s with blockNumber := b } : WeightedRoundRobin).centerPriorities =
      { s.centerPriorities with blockNumber := b } := rfl

theorem scalePriorities_setBlock (s : WeightedRoundRobin) (b : Nat) :
    ({ s with blockNumber := b } : WeightedRoundRobin).scalePriorities =
      { s.scalePriorities with blockNumber := b } := by
  unfold scalePriorities totalVotingPower
  dsimp only
  split_ifs <;> rfl

theorem proposerSelection_setBlock (s : WeightedRoundRobin) (b : Nat) :
    ({ s with blockNumber := b } : WeightedRoundRobin).proposerSelection =
      s.proposerSelection.map fun p => ({ p.1 with blockNumber := b }, p.2) := by
  unfold proposerSelection
  rw [Option.map_map]
  rfl

theorem round_setBlock (s : WeightedRoundRobin) (b : Nat) :
    ({ s with blockNumber := b } : WeightedRoundRobin).round =
      s.round.map fun p => ({ p.1 with blockNumber := b }, p.2) := by
  rw [round, centerPriorities_setBlock, scalePriorities_setBlock, proposerSelection_setBlock]
  rfl

theorem catchUp_setBlock (n : Nat) (s : WeightedRoundRobin) (b : Nat) (leader : Option Nat) :
    catchUp n { s with blockNumber := b } leader =
      (catchUp n s leader).map fun p => ({ p.1 with blockNumber := b }, p.2) := by
  induction n generalizing s leader with
  | zero => rfl
  | succ n ih =>
    rw [catchUp, catchUp, round_setBlock, Option.bind_map, Option.map_bind]
    congr 1
    funext p
    exact ih { p.1 with lastProposer := some p.2 } (some p.2)

theorem catchUp_add (m n : Nat) (s : WeightedRoundRobin) (leader : Option Nat) :
    catchUp (m + n) s leader = (catchUp m s leader).bind fun p => catchUp n p.1 p.2 := by
  induction m generalizing s leader with
  | zero => simp [catchUp]
  | succ m ih =>
    rw [Nat.add_right_comm, catchUp, catchUp, Option.bind_assoc]
    congr 1
    funext p
    exact ih _ _

theorem catchUp_succ_leader (n : Nat) (s : WeightedRoundRobin) (leader : Option Nat) :
    catchUp (n + 1) s leader = catchUp (n + 1) s none := rfl

theorem catchUp_succ_lastProposer {n : Nat} {s t : WeightedRoundRobin} {leader l : Option Nat}
    (h : catchUp (n + 1) s leader = some (t, l)) : t.lastProposer = l ∧ l.isSome := by
  induction n generalizing s leader with
  | zero =>
    rw [catchUp] at h
    obtain ⟨p, -, hp⟩ := Option.bind_eq_some_iff.1 h
    simp only [catchUp, Option.some.injEq, Prod.mk.injEq] at hp
    obtain ⟨rfl, rfl⟩ := hp
    simp
  | succ n ih =>
    rw [catchUp] at h
    obtain ⟨p, -, hp⟩ := Option.bind_eq_some_iff.1 h
    exact ih hp

end WeightedRoundRobin

/-- The selection of a node at block `h`: the catch-up from the deploy block `d`, at block `h`. -/
def canonical (validators : List AngstromValidator) (d h : Nat) :
    Option (WeightedRoundRobin × Option Nat) :=
  (catchUp (h - d) (.new validators d) none).map fun p => ({ p.1 with blockNumber := h }, p.2)

theorem chooseProposer_canonical {validators : List AngstromValidator} {d h h' : Nat}
    {s : WeightedRoundRobin} {leader : Option Nat} (hd : d < h) (hh : h ≤ h')
    (hs : canonical validators d h = some (s, leader)) :
    s.chooseProposer h' = canonical validators d h' := by
  obtain ⟨⟨t, l⟩, hcatch, hst⟩ := Option.map_eq_some_iff.1 hs
  simp only [Prod.mk.injEq] at hst
  obtain ⟨rfl, rfl⟩ := hst
  obtain ⟨k, hk⟩ : ∃ k, h - d = k + 1 := ⟨h - d - 1, by omega⟩
  rw [hk] at hcatch
  obtain ⟨hlast, hsome⟩ := catchUp_succ_lastProposer hcatch
  rcases Nat.eq_or_lt_of_le hh with rfl | hlt
  · -- the same block: the last proposer is returned, nothing moves
    obtain ⟨p, rfl⟩ := Option.isSome_iff_exists.1 hsome
    simp [chooseProposer, hlast, canonical, hk, hcatch]
  · -- a later block: the catch-up goes on from where the one to `h` stopped
    have hne : h' ≠ h := by omega
    have hnlt : ¬h' < h := by omega
    obtain ⟨j, hj⟩ : ∃ j, h' - h = j + 1 := ⟨h' - h - 1, by omega⟩
    simp only [chooseProposer, if_neg hne, if_neg hnlt, canonical]
    rw [hj, catchUp_setBlock, show h' - d = (k + 1) + (j + 1) by omega, catchUp_add (k + 1) (j + 1),
      hcatch, Option.map_map, Option.bind_some, catchUp_succ_leader]
    rfl

/-- A run computes the leaders of the catch-ups when its first call gives the catch-up's result
and the rest of the run, from every state that catch-up leaves, does. -/
theorem runHistory_cons_eq {validators : List AngstromValidator} {d h : Nat} {hs : List Nat}
    {s : WeightedRoundRobin} (hfirst : s.chooseProposer h = canonical validators d h)
    (hrest : ∀ s' l', canonical validators d h = some (s', l') →
      runHistory s' hs = hs.mapM fun h' => (canonical validators d h').map (·.2)) :
    runHistory s (h :: hs) = (h :: hs).mapM fun h' => (canonical validators d h').map (·.2) := by
  rw [runHistory, hfirst, List.mapM_cons]
  cases hc : canonical validators d h with
  | none => rfl
  | some p =>
    obtain ⟨s', l'⟩ := p
    simp only [Option.bind_some, Option.map_some, hrest s' l' hc]
    cases List.mapM (fun h' => (canonical validators d h').map (·.2)) hs <;> rfl

/-- From the state of block `h` above the deploy block, a node that sees blocks `h` or later, in
order, computes the leaders of their catch-ups from the deploy block. -/
theorem runHistory_of_canonical {validators : List AngstromValidator} {d : Nat} :
    ∀ (hs : List Nat) {h : Nat} {s : WeightedRoundRobin} {leader : Option Nat}, d < h →
      canonical validators d h = some (s, leader) → hs.Pairwise (· ≤ ·) → (∀ h' ∈ hs, h ≤ h') →
        runHistory s hs = hs.mapM fun h' => (canonical validators d h').map (·.2)
  | [], _, _, _, _, _, _, _ => rfl
  | h' :: hs, h, s, leader, hd, hs₀, hsorted, hafter => by
    have hh' : h ≤ h' := hafter h' List.mem_cons_self
    obtain ⟨hle, hsorted'⟩ := List.pairwise_cons.1 hsorted
    exact runHistory_cons_eq (chooseProposer_canonical hd hh' hs₀) fun _ _ hc =>
      runHistory_of_canonical hs (by omega) hc hsorted' hle

/-- Every leader a node computes from a non-decreasing run of heights above the deploy block is
the leader of the catch-up from the deploy block to that height: a function of the validators,
the deploy block and the height. -/
theorem runHistory_eq_canonical (validators : List AngstromValidator) (d : Nat) (hs : List Nat)
    (hsorted : hs.Pairwise (· ≤ ·)) (habove : ∀ h ∈ hs, d < h) :
    runHistory (.new validators d) hs = hs.mapM fun h => (canonical validators d h).map (·.2) := by
  cases hs with
  | nil => rfl
  | cons h hs =>
    have hd : d < h := habove h List.mem_cons_self
    -- the first call is the catch-up from the deploy block itself
    have hfirst : (WeightedRoundRobin.new validators d).chooseProposer h =
        canonical validators d h := by
      simp [WeightedRoundRobin.chooseProposer, WeightedRoundRobin.new, canonical,
        show h ≠ d by omega, show ¬h < d by omega]
    obtain ⟨hle, hsorted'⟩ := List.pairwise_cons.1 hsorted
    exact runHistory_cons_eq hfirst fun _ _ hc => runHistory_of_canonical hs hd hc hsorted' hle

/-! ## Which heights a selection answers

Every step keeps the validators, one per peer id, so a selection of a non-empty set always has a
proposer: at its own block or above, `choose_proposer` returns a leader after one round per
block (`chooseProposer_isSome`). Below its own block the `u64` subtraction of the round count
panics; a reorg to a shorter chain delivers such a block. -/

namespace WeightedRoundRobin

theorem maxByPriority_isSome {vs : List AngstromValidator} (h : vs ≠ []) :
    (maxByPriority vs).isSome := by
  cases vs with
  | nil => exact absurd rfl h
  | cons v vs => rfl

theorem centerPriorities_validators_ne_nil {s : WeightedRoundRobin} (h : s.validators ≠ []) :
    s.centerPriorities.validators ≠ [] := by
  simpa [centerPriorities] using h

theorem scalePriorities_validators_ne_nil {s : WeightedRoundRobin} (h : s.validators ≠ []) :
    s.scalePriorities.validators ≠ [] := by
  unfold scalePriorities
  dsimp only
  split
  · simpa using h
  · exact h

theorem proposerSelection_isSome {s : WeightedRoundRobin} (h : s.validators ≠ []) :
    ∃ t p, s.proposerSelection = some (t, p) ∧ t.validators ≠ [] := by
  unfold proposerSelection
  dsimp only
  have hgrown : (s.validators.map fun v => { v with priority := v.priority + v.votingPower }) ≠ [] := by
    simpa using h
  obtain ⟨v, hv⟩ := Option.isSome_iff_exists.1 (maxByPriority_isSome hgrown)
  refine ⟨_, _, by rw [mapValidators_validators, hv, Option.map_some], ?_⟩
  simpa [replace] using h

theorem round_isSome {s : WeightedRoundRobin} (h : s.validators ≠ []) :
    ∃ t p, s.round = some (t, p) ∧ t.validators ≠ [] :=
  proposerSelection_isSome (scalePriorities_validators_ne_nil (centerPriorities_validators_ne_nil h))

theorem catchUp_isSome (n : Nat) {s : WeightedRoundRobin} (h : s.validators ≠ [])
    (leader : Option Nat) : ∃ t l, catchUp (n + 1) s leader = some (t, some l) := by
  induction n generalizing s leader with
  | zero =>
    obtain ⟨t, p, hr, -⟩ := round_isSome h
    exact ⟨{ t with lastProposer := some p }, p, by simp [catchUp, hr]⟩
  | succ n ih =>
    obtain ⟨t, p, hr, ht⟩ := round_isSome h
    rw [catchUp, hr, Option.bind_some]
    exact ih (s := { t with lastProposer := some p }) ht (some p)

theorem chooseProposer_isSome {s : WeightedRoundRobin} (h : s.validators ≠ []) {b : Nat}
    (hb : s.blockNumber ≤ b) : ∃ t l, s.chooseProposer b = some (t, some l) := by
  unfold chooseProposer
  rcases Nat.eq_or_lt_of_le hb with rfl | hlt
  · rw [if_pos rfl]
    cases hl : s.lastProposer with
    | none =>
      obtain ⟨t, p, hp, -⟩ := proposerSelection_isSome h
      exact ⟨_, p, by rw [hp, Option.map_some]⟩
    | some p => exact ⟨s, p, rfl⟩
  · rw [if_neg (by omega), if_neg (by omega)]
    obtain ⟨n, hn⟩ : ∃ n, b - s.blockNumber = n + 1 := ⟨b - s.blockNumber - 1, by omega⟩
    obtain ⟨t, l, hc⟩ := catchUp_isSome n h none
    exact ⟨_, l, by rw [hn, hc, Option.map_some]⟩

end WeightedRoundRobin

/-- A node that has caught up to block `h` panics when asked for any lower block, as a reorg to
a shorter chain asks; a node deployed at block `3` that saw block `5` and then a reorg to block
`4` is an instance. -/
theorem reorg_chooseProposer_panics :
    (∀ (validators : List AngstromValidator) (d h h' : Nat) (s : WeightedRoundRobin)
      (leader : Option Nat), canonical validators d h = some (s, leader) → h' < h →
        s.chooseProposer h' = none) ∧
      runHistory (.new twoValidators 3) [5, 4] = none := by
  refine ⟨fun validators d h h' s leader hs hlt => ?_, by decide⟩
  obtain ⟨⟨t, l⟩, -, hst⟩ := Option.map_eq_some_iff.1 hs
  simp only [Prod.mk.injEq] at hst
  obtain ⟨rfl, rfl⟩ := hst
  simp [chooseProposer, Nat.ne_of_lt hlt, hlt]

end Angstrom.Consensus
