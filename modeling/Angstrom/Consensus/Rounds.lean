import Mathlib

/-!
# Quorum of pre-proposals and the check of a proposal

`crates/consensus/src/rounds/{mod.rs, finalization.rs}` and `crates/types/src/consensus/`. In a
round every validator signs a `PreProposal` of the order hashes it has seen, then a
`PreProposalAggregation` of at least two thirds of the pre-proposals it received. The leader
collects aggregations; `SharedRoundState::matching_engine_output` gathers the limit and searcher
hashes of every pre-proposal of every aggregation and keeps those that appear at least
`two_thirds_of_validation_set()` times (`filter_quorum_orders`). A `FinalizationState` then
recomputes the solutions from the proposal's aggregations and compares them with the
proposal's.

Signature recovery is what a signature names as its signer (`signer`); keys and peer ids are the
same numbers here. `filter_quorum_orders` returns the keys of a `HashMap` in no fixed order: here
in the order of their first appearance. The aggregations form a `HashSet`, a list here.

The count is over occurrences, not over validators: a pre-proposal held by several aggregations
counts once per aggregation (`mem_quorumOrders_iff`), so honest aggregations that all carry one
validator's pre-proposal lift its orders to the quorum alone (`quorum_of_one_validator`). The
final check zips the two sorted lists, which stops at the shorter one, so a proposal with fewer
solutions than the recomputation passes (`finalizationVerifies_iff`).
-/

namespace Angstrom.Consensus

/-- `PreProposal`, with the signer its signature recovers to. -/
structure PreProposal where
  blockHeight : Nat
  source : Nat
  limit : List Nat
  searcher : List Nat
  signer : Option Nat
  deriving DecidableEq, Repr

def PreProposal.isValid (p : PreProposal) (blockHeight : Nat) : Bool :=
  p.signer == some p.source && p.blockHeight == blockHeight

/-- `PreProposalAggregation`, with the signer its signature recovers to. -/
structure PreProposalAggregation where
  blockHeight : Nat
  source : Nat
  preProposals : List PreProposal
  signer : Option Nat
  deriving DecidableEq, Repr

/-- `PreProposalAggregation::is_valid`: every pre-proposal valid, at least two thirds of them,
signed by its source. -/
def PreProposalAggregation.isValid (a : PreProposalAggregation) (blockHeight twoThirds : Nat) :
    Bool :=
  a.preProposals.all (·.isValid blockHeight) && twoThirds ≤ a.preProposals.length &&
    a.signer == some a.source

def twoThirdsOfValidationSet (validators : List Nat) : Nat := (2 * validators.length + 2) / 3

/-- The check of `handle_pre_proposal_aggregation`: a valid aggregation whose signer is a
validator. -/
def validPreProposalAggregation (validators : List Nat) (blockHeight : Nat)
    (a : PreProposalAggregation) : Bool :=
  a.isValid blockHeight (twoThirdsOfValidationSet validators) &&
    match a.signer with
    | some peerId => validators.contains peerId
    | none => false

/-- `filter_quorum_orders`: the hashes that appear at least `twoThirds` times. -/
def filterQuorumOrders (twoThirds : Nat) (input : List Nat) : List Nat :=
  input.dedup.filter fun order => twoThirds ≤ input.count order

/-- The hashes `matching_engine_output` gathers from the `limit` (or `searcher`) lists of every
pre-proposal of every aggregation. -/
def gatheredHashes (field : PreProposal → List Nat) (aggregations : List PreProposalAggregation) :
    List Nat :=
  (aggregations.map fun a => (a.preProposals.map field).flatten).flatten

/-- The limit (or searcher) orders `matching_engine_output` passes on to the matching engine. -/
def quorumOrders (field : PreProposal → List Nat) (validators : List Nat)
    (aggregations : List PreProposalAggregation) : List Nat :=
  filterQuorumOrders (twoThirdsOfValidationSet validators) (gatheredHashes field aggregations)

/-- The final check of `FinalizationState::new`: the two sorted lists of solutions agree where
`zip` pairs them. -/
def finalizationVerifies {α : Type} [LinearOrder α] (proposal recomputed : List α) : Bool :=
  ((proposal.insertionSort (· ≤ ·)).zip (recomputed.insertionSort (· ≤ ·))).all
    fun p => p.1 == p.2

/-! ## What the filter keeps -/

theorem mem_filterQuorumOrders_iff (twoThirds : Nat) (input : List Nat) (order : Nat) :
    order ∈ filterQuorumOrders twoThirds input ↔ order ∈ input ∧ twoThirds ≤ input.count order := by
  simp [filterQuorumOrders, List.mem_filter, List.mem_dedup]

theorem count_gatheredHashes (field : PreProposal → List Nat)
    (aggregations : List PreProposalAggregation) (order : Nat) :
    (gatheredHashes field aggregations).count order =
      (aggregations.map fun a => (a.preProposals.map fun p => (field p).count order).sum).sum := by
  simp [gatheredHashes, List.count_flatten, Function.comp_def]

/-- An order reaches the matching engine when its occurrences in the lists of all pre-proposals
of all aggregations, counted with repetition, reach two thirds of the validators. -/
theorem mem_quorumOrders_iff (field : PreProposal → List Nat) (validators : List Nat)
    (aggregations : List PreProposalAggregation) (order : Nat) :
    order ∈ quorumOrders field validators aggregations ↔
      0 < (gatheredHashes field aggregations).count order ∧
        twoThirdsOfValidationSet validators ≤
          (aggregations.map fun a => (a.preProposals.map fun p => (field p).count order).sum).sum := by
  rw [quorumOrders, mem_filterQuorumOrders_iff, List.count_pos_iff, count_gatheredHashes]

/-- Four validators; each signs a pre-proposal for block `10`, and only validator `1` has seen
order `77`. -/
def roundPreProposal (peer : Nat) : PreProposal :=
  ⟨10, peer, if peer = 1 then [77] else [], [], some peer⟩

/-- The aggregations validators `2`, `3` and `4` sign, each of three pre-proposals it received,
all holding validator `1`'s. -/
def roundAggregations : List PreProposalAggregation :=
  [⟨10, 2, [1, 2, 3].map roundPreProposal, some 2⟩, ⟨10, 3, [1, 3, 4].map roundPreProposal, some 3⟩,
    ⟨10, 4, [1, 2, 4].map roundPreProposal, some 4⟩]

/-- Every aggregation passes `handle_pre_proposal_aggregation`, and order `77` reaches the
matching engine although one validator of four listed it, against a quorum of three. And a
proposal with no solutions passes the final check against a recomputation with one. -/
theorem quorum_of_one_validator :
    roundAggregations.all (validPreProposalAggregation [1, 2, 3, 4] 10) ∧
      77 ∈ quorumOrders PreProposal.limit [1, 2, 3, 4] roundAggregations ∧
      (([1, 2, 3, 4].map roundPreProposal).filter fun p => 77 ∈ p.limit).map (·.source) = [1] ∧
      twoThirdsOfValidationSet [1, 2, 3, 4] = 3 ∧
      finalizationVerifies ([] : List Nat) [5] = true := by
  decide

/-! ## What the final check accepts -/

theorem zip_all_beq_iff {α : Type} [DecidableEq α] :
    ∀ (xs ys : List α), ((xs.zip ys).all fun p => p.1 == p.2) ↔ xs.take ys.length = ys.take xs.length
  | [], _ => by simp
  | _ :: _, [] => by simp
  | x :: xs, y :: ys => by
    simp only [List.zip_cons_cons, List.all_cons, Bool.and_eq_true, beq_iff_eq,
      List.length_cons, List.take_succ_cons, List.cons.injEq]
    rw [← zip_all_beq_iff xs ys]

theorem finalizationVerifies_iff {α : Type} [LinearOrder α] (proposal recomputed : List α) :
    finalizationVerifies proposal recomputed = true ↔
      (proposal.insertionSort (· ≤ ·)).take recomputed.length =
        (recomputed.insertionSort (· ≤ ·)).take proposal.length := by
  rw [finalizationVerifies, zip_all_beq_iff, List.length_insertionSort, List.length_insertionSort]

end Angstrom.Consensus
