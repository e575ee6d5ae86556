import Angstrom.Contract.OrderInvalidation
import Angstrom.Lib.Transition

/-!
# Bundles across blocks: no order is settled twice

`Angstrom.execute`, `TopLevelAuth._nodeBundleLock` and `unlockWithEmptyAttestation`, and the
validation of each order in `Angstrom.unlockCallback`. A node may run one bundle per block: the
lock records the block of the last bundle or empty attestation and refuses a second one. Each
order of the bundle is hashed with what makes it single-use and then invalidated before it is
settled:

* a standing user order signs its nonce, and `_invalidateNonce` spends the signer's nonce;
* a flash user order and a top-of-block order sign `validForBlock`, which the contract sets to the
  current block (`readOrderValidation`, `ToBOrderBufferLib.init`), and `_invalidateOrderHash` sets
  a transient flag of the order hash and signer, cleared when the transaction ends.

`SignedOrder` is what a signer signs, with the signed fields that play no part here left as a
parameter `μ`; the hash of a signed order is a parameter `digest`, and so are the storage slots
(`OrderInvalidation`). Signature recovery is left out: an order comes with its signer. The rest of
`unlockCallback` (reading assets and pairs, pool updates, the amounts, the settlement transfers)
either succeeds or reverts the whole transaction, so a run of the model that drops the reverted
transactions is a run of the contract; `settled` is the log of the orders that reached
`_settleOrderIn`/`_settleOrderOut`. A hook called during a bundle can re-enter the contract:
`execute` and `unlockWithEmptyAttestation` then revert on the lock, and a successful
`invalidateNonce` spends a nonce that no order of the bundle spends, so it acts as if it ran
before the bundle.

`settled_nodup`: in every reachable state no signer's order was settled twice, whatever the
hashes are.
-/

namespace Angstrom.Contract

namespace Execution

open OrderInvalidation

/-- What a signer signs: the kind of order, the nonce and deadline of a standing order or the
block a flash or top-of-block order is valid for, and the other signed fields. -/
inductive SignedOrder (μ : Type) where
  | standing (nonce deadline : Nat) (fields : μ)
  | flash (validForBlock : Nat) (fields : μ)
  | topOfBlock (validForBlock : Nat) (fields : μ)
  deriving DecidableEq, Repr

namespace SignedOrder

variable {μ : Type}

def nonce? : SignedOrder μ → Option Nat
  | .standing nonce _ _ => some nonce
  | _ => none

def validForBlock? : SignedOrder μ → Option Nat
  | .standing .. => none
  | .flash validForBlock _ => some validForBlock
  | .topOfBlock validForBlock _ => some validForBlock

theorem nonce?_or_validForBlock? (order : SignedOrder μ) :
    (∃ n, order.nonce? = some n) ∨ ∃ b, order.validForBlock? = some b := by
  cases order with
  | standing nonce _ _ => exact .inl ⟨nonce, rfl⟩
  | flash b _ => exact .inr ⟨b, rfl⟩
  | topOfBlock b _ => exact .inr ⟨b, rfl⟩

end SignedOrder

/-- How a user order of a bundle is validated: with the nonce and deadline it carries, or as a
flash order for the current block. -/
inductive OrderValidation where
  | standing (nonce deadline : Nat)
  | flash
  deriving DecidableEq, Repr

/-- A user order of a bundle, with its recovered signer. -/
structure UserOrderIn (μ : Type) where
  signer : Address
  validation : OrderValidation
  fields : μ

/-- A top-of-block order of a bundle, with its recovered signer. -/
structure ToBOrderIn (μ : Type) where
  signer : Address
  fields : μ

/-- The orders of a bundle, in the order `unlockCallback` validates them. -/
structure Bundle (μ : Type) where
  toBOrders : List (ToBOrderIn μ)
  userOrders : List (UserOrderIn μ)

/-- The state this model follows: the block, `_lastBlockUpdated`, `_isNode`, the nonce bitmap,
transient storage, and the log of settled orders. -/
structure State (σ τ μ : Type) where
  blockNumber : Nat
  timestamp : Nat
  lastBlockUpdated : Nat
  isNode : Address → Bool
  bitmap : σ → Nat
  transient : τ → Bool
  settled : List (Address × SignedOrder μ)

variable {σ τ δ μ : Type} [DecidableEq σ] [DecidableEq τ]
  (nonceSlot : Address → Nat → σ) (orderSlot : δ → Address → τ) (digest : SignedOrder μ → δ)

def checkDeadline (self : State σ τ μ) (deadline : Nat) : Except Revert Unit :=
  if self.timestamp > deadline then throw .expired else pure ()

/-- Settling an order: its transfers are outside the model; the log records it. -/
def settle (self : State σ τ μ) (signer : Address) (order : SignedOrder μ) : State σ τ μ :=
  { self with settled := self.settled ++ [(signer, order)] }

/-- The validation of `_validateAndExecuteToBOrder`: the order is valid for the current block
and its hash is flagged. -/
def validateAndExecuteToBOrder (self : State σ τ μ) (order : ToBOrderIn μ) :
    Except Revert (State σ τ μ) := do
  let signed := SignedOrder.topOfBlock self.blockNumber order.fields
  let transient ← invalidateOrderHash orderSlot self.transient (digest signed) order.signer
  return settle { self with transient } order.signer signed

/-- The validation of `_validateAndExecuteUserOrder`: a standing order checks its deadline and
spends its nonce, a flash order is valid for the current block and its hash is flagged. -/
def validateAndExecuteUserOrder (self : State σ τ μ) (order : UserOrderIn μ) :
    Except Revert (State σ τ μ) :=
  match order.validation with
  | .standing nonce deadline => do
    let signed := SignedOrder.standing nonce deadline order.fields
    checkDeadline self deadline
    let bitmap ← invalidateNonce nonceSlot self.bitmap order.signer nonce
    return settle { self with bitmap } order.signer signed
  | .flash => do
    let signed := SignedOrder.flash self.blockNumber order.fields
    let transient ← invalidateOrderHash orderSlot self.transient (digest signed) order.signer
    return settle { self with transient } order.signer signed

/-- The order loops of `unlockCallback`: the top-of-block orders, then the user orders. -/
def unlockCallback (self : State σ τ μ) (bundle : Bundle μ) : Except Revert (State σ τ μ) := do
  let self ← bundle.toBOrders.foldlM (validateAndExecuteToBOrder orderSlot digest) self
  bundle.userOrders.foldlM (validateAndExecuteUserOrder nonceSlot orderSlot digest) self

def nodeBundleLock (self : State σ τ μ) (sender : Address) : Except Revert (State σ τ μ) := do
  if self.lastBlockUpdated = self.blockNumber then throw .onlyOncePerBlock
  if !self.isNode sender then throw .notNode
  return { self with lastBlockUpdated := self.blockNumber }

def execute (self : State σ τ μ) (sender : Address) (encoded : Option (Bundle μ)) :
    Except Revert (State σ τ μ) := do
  let self ← nodeBundleLock self sender
  match encoded with
  | none => return self
  | some bundle => unlockCallback nonceSlot orderSlot digest self bundle

/-- `unlockWithEmptyAttestation`: a node takes the block's lock without a bundle. Its checks are
those of `_nodeBundleLock` for the named node (`_isUnlocked`, then `_isNode`); the attestation's
signature check is left out. -/
def unlockWithEmptyAttestation (self : State σ τ μ) (node : Address) :
    Except Revert (State σ τ μ) :=
  nodeBundleLock self node

def endTransaction (self : State σ τ μ) : State σ τ μ :=
  { self with transient := fun _ => false }

/-- The transactions and the passing of blocks. -/
inductive Call (μ : Type) where
  | execute (sender : Address) (encoded : Option (Bundle μ))
  | unlockWithEmptyAttestation (node : Address)
  | invalidateNonce (sender : Address) (nonce : Nat)
  | newBlock (elapsed : Nat)

def step (self : State σ τ μ) : Call μ → Except Revert (State σ τ μ × Unit)
  | .execute sender encoded =>
    (fun s => (endTransaction s, ())) <$> execute nonceSlot orderSlot digest self sender encoded
  | .unlockWithEmptyAttestation node =>
    (fun s => (endTransaction s, ())) <$> unlockWithEmptyAttestation self node
  | .invalidateNonce sender nonce =>
    (fun bitmap => (endTransaction { self with bitmap }, ())) <$>
      invalidateNonce nonceSlot self.bitmap sender nonce
  | .newBlock elapsed =>
    pure ({ self with blockNumber := self.blockNumber + 1, timestamp := self.timestamp + elapsed },
      ())

/-- The contract as deployed: no nonce spent, no bundle yet, nothing settled. -/
def Initial (self : State σ τ μ) : Prop :=
  self.lastBlockUpdated = 0 ∧ self.bitmap = (fun _ => 0) ∧ self.transient = (fun _ => false) ∧
    self.settled = []

def system : Transition.System (State σ τ μ) (Call μ) :=
  Transition.ofExcept Initial (step nonceSlot orderSlot digest)

/-! ## The invariant -/

/-- What the order loops keep from the state `start` where they began, with `new` the orders
they settled: the block and lock are untouched, every new standing order spent a nonce that was
free at the start, every new flash or top-of-block order is valid for this block and flagged, and
no nonce is freed. -/
structure Run (start cur : State σ τ μ) (new : List (Address × SignedOrder μ)) : Prop where
  blockNumber : cur.blockNumber = start.blockNumber
  lastBlockUpdated : cur.lastBlockUpdated = start.lastBlockUpdated
  settled : cur.settled = start.settled ++ new
  nodup : new.Nodup
  spent : ∀ x ∈ new, ∀ n, x.2.nonce? = some n →
    nonceUsed nonceSlot cur.bitmap x.1 n = true ∧ nonceUsed nonceSlot start.bitmap x.1 n = false
  flagged : ∀ x ∈ new, ∀ b, x.2.validForBlock? = some b →
    b = start.blockNumber ∧ cur.transient (orderSlot (digest x.2) x.1) = true
  monotone : ∀ o n, nonceUsed nonceSlot start.bitmap o n = true →
    nonceUsed nonceSlot cur.bitmap o n = true

variable {nonceSlot orderSlot digest}

omit [DecidableEq σ] [DecidableEq τ] in
theorem Run.nil (start : State σ τ μ) : Run nonceSlot orderSlot digest start start [] :=
  ⟨rfl, rfl, (List.append_nil _).symm, List.nodup_nil, nofun, nofun, fun _ _ h => h⟩

omit [DecidableEq σ] in
theorem Run.flag {start cur : State σ τ μ} {new : List (Address × SignedOrder μ)}
    (hrun : Run nonceSlot orderSlot digest start cur new) {signer : Address}
    {signed : SignedOrder μ} (hblock : signed.validForBlock? = some cur.blockNumber)
    {transient : τ → Bool}
    (hflag : invalidateOrderHash orderSlot cur.transient (digest signed) signer = .ok transient) :
    Run nonceSlot orderSlot digest start (settle { cur with transient } signer signed)
      (new ++ [(signer, signed)]) := by
  obtain ⟨hfree, hset, hmono⟩ := invalidateOrderHash_ok orderSlot hflag
  have hnonce : signed.nonce? = none := by
    cases signed <;> simp_all [SignedOrder.nonce?, SignedOrder.validForBlock?]
  refine ⟨hrun.blockNumber, hrun.lastBlockUpdated, ?_, ?_, ?_, ?_, hrun.monotone⟩
  · simp [settle, hrun.settled]
  · -- the order was not flagged, so it was not settled in this run
    rw [← List.concat_eq_append]
    refine List.Nodup.concat (fun hx => ?_) hrun.nodup
    have := (hrun.flagged _ hx _ (by rw [hblock])).2
    rw [hfree] at this
    exact Bool.false_ne_true this
  · intro x hx n hn
    rcases List.mem_append.1 hx with hx | hx
    · exact hrun.spent x hx n hn
    · simp only [List.mem_singleton] at hx
      subst hx
      rw [hnonce] at hn
      cases hn
  · intro x hx b hb
    rcases List.mem_append.1 hx with hx | hx
    · obtain ⟨hb', ht⟩ := hrun.flagged x hx b hb
      exact ⟨hb', hmono _ ht⟩
    · simp only [List.mem_singleton] at hx
      subst hx
      rw [hblock] at hb
      cases hb
      exact ⟨hrun.blockNumber, hset⟩

omit [DecidableEq τ] in
theorem Run.spend {start cur : State σ τ μ} {new : List (Address × SignedOrder μ)}
    (hrun : Run nonceSlot orderSlot digest start cur new) {signer : Address}
    {nonce deadline : Nat} {fields : μ} {bitmap : σ → Nat}
    (hspend : invalidateNonce nonceSlot cur.bitmap signer nonce = .ok bitmap) :
    Run nonceSlot orderSlot digest start
      (settle { cur with bitmap } signer (.standing nonce deadline fields))
      (new ++ [(signer, .standing nonce deadline fields)]) := by
  obtain ⟨hfree, hused, hmono⟩ := invalidateNonce_ok nonceSlot hspend
  refine ⟨hrun.blockNumber, hrun.lastBlockUpdated, ?_, ?_, ?_, ?_, ?_⟩
  · simp [settle, hrun.settled]
  · -- the nonce was free, so no order of this run spent it
    rw [← List.concat_eq_append]
    refine List.Nodup.concat (fun hx => ?_) hrun.nodup
    have := (hrun.spent _ hx nonce rfl).1
    rw [hfree] at this
    exact Bool.false_ne_true this
  · intro x hx n hn
    rcases List.mem_append.1 hx with hx | hx
    · obtain ⟨hcur, hstart⟩ := hrun.spent x hx n hn
      exact ⟨hmono _ _ hcur, hstart⟩
    · simp only [List.mem_singleton] at hx
      subst hx
      cases hn
      refine ⟨hused, ?_⟩
      cases h : nonceUsed nonceSlot start.bitmap signer nonce
      · rfl
      · rw [hrun.monotone _ _ h] at hfree
        simp at hfree
  · intro x hx b hb
    rcases List.mem_append.1 hx with hx | hx
    · exact hrun.flagged x hx b hb
    · simp only [List.mem_singleton] at hx
      subst hx
      cases hb
  · intro o n h
    exact hmono o n (hrun.monotone o n h)

omit [DecidableEq σ] in
theorem Run.toBOrder {start cur cur' : State σ τ μ} {new : List (Address × SignedOrder μ)}
    (hrun : Run nonceSlot orderSlot digest start cur new) {order : ToBOrderIn μ}
    (h : validateAndExecuteToBOrder orderSlot digest cur order = .ok cur') :
    ∃ x, Run nonceSlot orderSlot digest start cur' (new ++ [x]) := by
  obtain ⟨transient, hflag, h⟩ := Checked.bind_eq_ok.1 h
  simp only [Checked.pure_eq_ok] at h
  subst h
  exact ⟨_, hrun.flag rfl hflag⟩

theorem Run.userOrder {start cur cur' : State σ τ μ} {new : List (Address × SignedOrder μ)}
    (hrun : Run nonceSlot orderSlot digest start cur new) {order : UserOrderIn μ}
    (h : validateAndExecuteUserOrder nonceSlot orderSlot digest cur order = .ok cur') :
    ∃ x, Run nonceSlot orderSlot digest start cur' (new ++ [x]) := by
  unfold validateAndExecuteUserOrder at h
  split at h
  · obtain ⟨-, -, h⟩ := Checked.bind_eq_ok.1 h
    obtain ⟨bitmap, hspend, h⟩ := Checked.bind_eq_ok.1 h
    simp only [Checked.pure_eq_ok] at h
    subst h
    exact ⟨_, hrun.spend hspend⟩
  · obtain ⟨transient, hflag, h⟩ := Checked.bind_eq_ok.1 h
    simp only [Checked.pure_eq_ok] at h
    subst h
    exact ⟨_, hrun.flag rfl hflag⟩

omit [DecidableEq σ] [DecidableEq τ] in
theorem Run.foldlM {α : Type} {start : State σ τ μ} {f : State σ τ μ → α → Except Revert (State σ τ μ)}
    (hf : ∀ {cur cur' : State σ τ μ} {new : List (Address × SignedOrder μ)} {a : α},
      Run nonceSlot orderSlot digest start cur new → f cur a = .ok cur' →
        ∃ x, Run nonceSlot orderSlot digest start cur' (new ++ [x])) :
    ∀ {as : List α} {cur cur' : State σ τ μ} {new : List (Address × SignedOrder μ)},
      Run nonceSlot orderSlot digest start cur new → as.foldlM f cur = .ok cur' →
        ∃ new', Run nonceSlot orderSlot digest start cur' new'
  | [], _, _, new, hrun, h => by
    simp only [List.foldlM_nil, Checked.pure_eq_ok] at h
    subst h
    exact ⟨new, hrun⟩
  | a :: as, cur, cur', new, hrun, h => by
    rw [List.foldlM_cons] at h
    obtain ⟨mid, hstep, hrest⟩ := Checked.bind_eq_ok.1 h
    obtain ⟨x, hmid⟩ := hf hrun hstep
    exact Run.foldlM hf hmid hrest

variable (nonceSlot) in
/-- The invariant between transactions: nothing was settled twice, a settled standing order's
nonce is spent, a settled flash or top-of-block order is valid for a block whose lock is taken,
the lock is not ahead of the chain, and transient storage is clear. -/
structure Safe (s : State σ τ μ) : Prop where
  nodup : s.settled.Nodup
  spent : ∀ x ∈ s.settled, ∀ n, x.2.nonce? = some n → nonceUsed nonceSlot s.bitmap x.1 n = true
  locked : ∀ x ∈ s.settled, ∀ b, x.2.validForBlock? = some b → b ≤ s.lastBlockUpdated
  lock_le : s.lastBlockUpdated ≤ s.blockNumber
  transient : s.transient = fun _ => false

omit [DecidableEq σ] [DecidableEq τ] in
theorem nodeBundleLock_ok {s s' : State σ τ μ} {sender : Address}
    (h : nodeBundleLock s sender = .ok s') :
    s.lastBlockUpdated ≠ s.blockNumber ∧ s' = { s with lastBlockUpdated := s.blockNumber } := by
  unfold nodeBundleLock at h
  by_cases hfree : s.lastBlockUpdated = s.blockNumber
  · simp [hfree] at h
  by_cases hnode : s.isNode sender
  · simp only [hfree, hnode, if_false, Bool.not_true, Bool.false_eq_true,
      Checked.pure_eq_ok] at h
    exact ⟨hfree, h.symm⟩
  · simp [hfree, hnode] at h

omit [DecidableEq σ] [DecidableEq τ] in
theorem Safe.lock {s : State σ τ μ} (hs : Safe nonceSlot s) :
    Safe nonceSlot (endTransaction { s with lastBlockUpdated := s.blockNumber }) :=
  ⟨hs.nodup, hs.spent, fun x hx b hb => (hs.locked x hx b hb).trans hs.lock_le, le_refl _, rfl⟩

omit [DecidableEq σ] [DecidableEq τ] in
theorem Safe.bundle {s s' : State σ τ μ} {new : List (Address × SignedOrder μ)}
    (hs : Safe nonceSlot s) (hfresh : s.lastBlockUpdated < s.blockNumber)
    (hrun : Run nonceSlot orderSlot digest { s with lastBlockUpdated := s.blockNumber } s' new) :
    Safe nonceSlot (endTransaction s') := by
  have hlock : s'.lastBlockUpdated = s.blockNumber := hrun.lastBlockUpdated
  have hblock : s'.blockNumber = s.blockNumber := hrun.blockNumber
  refine ⟨?_, ?_, ?_, ?_, rfl⟩
  · show s'.settled.Nodup
    rw [hrun.settled]
    refine List.nodup_append.2 ⟨hs.nodup, hrun.nodup, ?_⟩
    intro x hx y hy hxy
    subst hxy
    rcases x.2.nonce?_or_validForBlock? with ⟨n, hn⟩ | ⟨b, hb⟩
    · have hold := hs.spent x hx n hn
      have hnew := (hrun.spent x hy n hn).2
      simp only at hnew
      rw [hold] at hnew
      simp at hnew
    · have hold := hs.locked x hx b hb
      have hnew := (hrun.flagged x hy b hb).1
      simp only at hnew
      omega
  · intro x hx n hn
    change x ∈ s'.settled at hx
    change nonceUsed nonceSlot s'.bitmap x.1 n = true
    rw [hrun.settled] at hx
    rcases List.mem_append.1 hx with hx | hx
    · exact hrun.monotone _ _ (hs.spent x hx n hn)
    · exact (hrun.spent x hx n hn).1
  · intro x hx b hb
    change x ∈ s'.settled at hx
    rw [hrun.settled] at hx
    show b ≤ s'.lastBlockUpdated
    rw [hlock]
    rcases List.mem_append.1 hx with hx | hx
    · exact (hs.locked x hx b hb).trans hs.lock_le
    · exact le_of_eq (hrun.flagged x hx b hb).1
  · show s'.lastBlockUpdated ≤ s'.blockNumber
    rw [hlock, hblock]

theorem Safe.execute {s s' : State σ τ μ} {sender : Address} {encoded : Option (Bundle μ)}
    (hs : Safe nonceSlot s) (h : execute nonceSlot orderSlot digest s sender encoded = .ok s') :
    Safe nonceSlot (endTransaction s') := by
  obtain ⟨s1, hlock, h⟩ := Checked.bind_eq_ok.1 h
  obtain ⟨hfree, rfl⟩ := nodeBundleLock_ok hlock
  have hfresh : s.lastBlockUpdated < s.blockNumber := lt_of_le_of_ne hs.lock_le hfree
  cases encoded with
  | none =>
    simp only [Checked.pure_eq_ok] at h
    subst h
    exact hs.lock
  | some bundle =>
    obtain ⟨s2, htob, huser⟩ := Checked.bind_eq_ok.1 h
    obtain ⟨new, hrun⟩ := Run.foldlM (fun hrun hstep => hrun.toBOrder hstep) (Run.nil _) htob
    obtain ⟨new', hrun'⟩ := Run.foldlM (fun hrun hstep => hrun.userOrder hstep) hrun huser
    exact hs.bundle hfresh hrun'

theorem Safe.step {s s' : State σ τ μ} {call : Call μ} (hs : Safe nonceSlot s)
    (h : step nonceSlot orderSlot digest s call = .ok (s', ())) : Safe nonceSlot s' := by
  cases call with
  | execute sender encoded =>
    obtain ⟨s1, hexec, h⟩ := Checked.map_eq_ok.1 h
    cases h
    exact hs.execute hexec
  | unlockWithEmptyAttestation node =>
    obtain ⟨s1, hunlock, h⟩ := Checked.map_eq_ok.1 h
    cases h
    obtain ⟨-, rfl⟩ := nodeBundleLock_ok hunlock
    exact hs.lock
  | invalidateNonce sender nonce =>
    obtain ⟨bitmap, hspend, h⟩ := Checked.map_eq_ok.1 h
    cases h
    obtain ⟨-, -, hmono⟩ := invalidateNonce_ok nonceSlot hspend
    exact ⟨hs.nodup, fun x hx n hn => hmono _ _ (hs.spent x hx n hn), hs.locked, hs.lock_le, rfl⟩
  | newBlock elapsed =>
    obtain ⟨rfl, -⟩ := Prod.mk.inj (Checked.pure_eq_ok.1 h)
    exact ⟨hs.nodup, hs.spent, hs.locked, Nat.le_succ_of_le hs.lock_le, hs.transient⟩

/-- No order is settled twice: in every reachable state the log of settled orders, each with
its signer, has no repetition. -/
theorem settled_nodup {s : State σ τ μ}
    (hs : Transition.Reachable (system nonceSlot orderSlot digest) s) : s.settled.Nodup := by
  have hsafe : Safe nonceSlot s := by
    refine Transition.Invariant.reachable (Transition.ofExcept_invariant ?_ ?_) hs
    · rintro s ⟨hlock, -, htransient, hsettled⟩
      refine ⟨by simp [hsettled], by simp [hsettled], by simp [hsettled], ?_, htransient⟩
      rw [hlock]
      exact Nat.zero_le _
    · rintro s call s' ⟨⟩ hsafe h
      exact hsafe.step h
  exact hsafe.nodup

def deployed : State (Address × Nat) (SignedOrder Unit × Address) Unit :=
  ⟨0, 0, 0, fun a => decide (a = 5), fun _ => 0, fun _ => false, []⟩

/-- A bundle in the deployment block (refused by the lock), the next block, a bundle with a
top-of-block order, a standing order and a flash order, and a second bundle in that block. -/
def sampleCalls : List (Call Unit) :=
  [.execute 5 (some ⟨[], [⟨9, .flash, ()⟩]⟩), .newBlock 12,
    .execute 5 (some ⟨[⟨7, ()⟩], [⟨8, .standing 3 100, ()⟩, ⟨8, .flash, ()⟩]⟩),
    .execute 5 (some ⟨[], [⟨9, .flash, ()⟩]⟩)]

theorem settled_nodup_sampleCalls :
    (Transition.runExcept (step Prod.mk Prod.mk id) deployed sampleCalls).settled.length = 3 ∧
      (Transition.runExcept (step Prod.mk Prod.mk id) deployed sampleCalls).settled.Nodup := by
  have hinit : Transition.Reachable (system Prod.mk Prod.mk id) deployed :=
    .init ⟨rfl, rfl, rfl, rfl⟩
  have hreach : Transition.Reachable (system Prod.mk Prod.mk id)
      (Transition.runExcept (step Prod.mk Prod.mk id) deployed sampleCalls) :=
    Transition.reachable_runExcept hinit sampleCalls
  exact ⟨rfl, settled_nodup hreach⟩

end Execution

end Angstrom.Contract
