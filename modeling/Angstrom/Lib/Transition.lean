import Mathlib

/-!
# Transition systems and their invariants

A transition system has initial states and a step relation labelled by the action taken. A
state is reachable when a run of steps leads to it from an initial state, and an invariant is
a predicate that holds initially and that every step keeps (`Invariant`), so that it holds of
every reachable state (`Invariant.reachable`).

Systems here come from step functions that may fail, a failure leaving the state as it was
(`ofExcept`): a reverted transaction, a rejected call. Their invariants only need the steps that
succeed (`ofExcept_invariant`), and running the step function on any list of actions stays among
the reachable states (`reachable_runExcept`). Others come from step functions that may panic,
where a panic ends the run (`ofOption`, `reachable_runOption`). In a `guarded` system a step is
taken only with arguments the environment admits in the state it starts from.
-/

namespace Transition

/-- A transition system on states `σ` with actions `α`. -/
structure System (σ α : Type) where
  init : σ → Prop
  step : σ → α → σ → Prop

variable {σ α : Type} (T : System σ α)

/-- The states a run of steps reaches from an initial state. -/
inductive Reachable : σ → Prop
  | init {s : σ} : T.init s → Reachable s
  | step {s s' : σ} {a : α} : Reachable s → T.step s a s' → Reachable s'

/-- A predicate that holds initially and is kept by every step. -/
structure Invariant (I : σ → Prop) : Prop where
  init : ∀ s, T.init s → I s
  step : ∀ s a s', I s → T.step s a s' → I s'

variable {T}

theorem Invariant.reachable {I : σ → Prop} (h : Invariant T I) {s : σ} (hs : Reachable T s) :
    I s := by
  induction hs with
  | init hi => exact h.init _ hi
  | step _ hstep ih => exact h.step _ _ _ ih hstep

/-- The system of a step function that may fail with an error of type `ε`, returning the next
state and an output of type `ω`; a failed step leaves the state unchanged. -/
def ofExcept {ε ω : Type} (init : σ → Prop) (f : σ → α → Except ε (σ × ω)) : System σ α where
  init := init
  step s a s' := (∃ o, f s a = .ok (s', o)) ∨ (∃ e, f s a = .error e) ∧ s' = s

theorem ofExcept_invariant {ε ω : Type} {init : σ → Prop} {f : σ → α → Except ε (σ × ω)}
    {I : σ → Prop} (h0 : ∀ s, init s → I s)
    (hstep : ∀ s a s' o, I s → f s a = .ok (s', o) → I s') :
    Invariant (ofExcept init f) I where
  init := h0
  step s a s' hs := by
    rintro (⟨o, hok⟩ | ⟨-, rfl⟩)
    · exact hstep s a s' o hs hok
    · exact hs

/-- Run a step function on a list of actions, a failed step leaving the state unchanged. -/
def runExcept {ε ω : Type} (f : σ → α → Except ε (σ × ω)) (s : σ) : List α → σ
  | [] => s
  | a :: as =>
    match f s a with
    | .ok (s', _) => runExcept f s' as
    | .error _ => runExcept f s as

theorem reachable_runExcept {ε ω : Type} {init : σ → Prop} {f : σ → α → Except ε (σ × ω)}
    {s : σ} (hs : Reachable (ofExcept init f) s) (as : List α) :
    Reachable (ofExcept init f) (runExcept f s as) := by
  induction as generalizing s with
  | nil => exact hs
  | cons a as ih =>
    unfold runExcept
    split
    · rename_i s' o hok
      exact ih (.step hs (.inl ⟨o, hok⟩))
    · rename_i e herr
      exact ih (.step hs (.inr ⟨⟨e, herr⟩, rfl⟩))

/-- The system of a step function that may fail, taking in each state only the actions that
`guard` admits there: what the environment guarantees about the arguments it passes. A failed
step leaves the state unchanged. -/
def guarded {ε : Type} (init : σ → Prop) (guard : σ → α → Prop) (f : σ → α → Except ε σ) :
    System σ α where
  init := init
  step s a s' := guard s a ∧ (f s a = .ok s' ∨ (∃ e, f s a = .error e) ∧ s' = s)

theorem guarded_invariant {ε : Type} {init : σ → Prop} {guard : σ → α → Prop}
    {f : σ → α → Except ε σ} {I : σ → Prop} (h0 : ∀ s, init s → I s)
    (hstep : ∀ s a s', guard s a → I s → f s a = .ok s' → I s') :
    Invariant (guarded init guard f) I where
  init := h0
  step s a s' hs := by
    rintro ⟨hg, hok | ⟨-, rfl⟩⟩
    · exact hstep s a s' hg hs hok
    · exact hs

theorem guarded_reachable_foldlM {ε : Type} {init : σ → Prop} {guard : σ → α → Prop}
    {f : σ → α → Except ε σ} (as : List α) (hg : ∀ s, ∀ a ∈ as, guard s a) :
    ∀ {s s' : σ}, Reachable (guarded init guard f) s → as.foldlM f s = .ok s' →
      Reachable (guarded init guard f) s' := by
  induction as with
  | nil =>
    intro s s' hs h
    cases h
    exact hs
  | cons a as ih =>
    intro s s' hs h
    rw [List.foldlM_cons] at h
    cases h₁ : f s a with
    | error e =>
      rw [h₁] at h
      cases h
    | ok s₁ =>
      rw [h₁] at h
      exact ih (fun t b hb => hg t b (List.mem_cons_of_mem a hb))
        (.step hs ⟨hg s a List.mem_cons_self, .inl h₁⟩) h

theorem foldl_invariant {β : Type} (I : σ → Prop) (f : σ → β → σ) (hf : ∀ s b, I s → I (f s b)) :
    ∀ (l : List β) (s : σ), I s → I (l.foldl f s) := by
  intro l
  induction l with
  | nil => exact fun _ hs => hs
  | cons b l ih => exact fun s hs => ih (f s b) (hf s b hs)

theorem foldl_keeps {β γ : Type} (g : σ → γ) (f : σ → β → σ) (hf : ∀ s b, g (f s b) = g s)
    (l : List β) (s : σ) : g (l.foldl f s) = g s :=
  foldl_invariant (fun x => g x = g s) f (fun x b hx => (hf x b).trans hx) l s rfl

/-- A run of steps that may fail, every one of which succeeds, keeps an invariant `I` and moves a
quantity `q` by the sum of what its steps move it by, when each step from a state of `I` keeps
`I` and moves `q` by an amount `δ` of its own. -/
theorem foldlM_accumulate {ε β M : Type} [AddCommMonoid M] (I : σ → Prop) (P : β → Prop)
    (q : σ → M) (δ : β → M) {f : σ → β → Except ε σ}
    (hf : ∀ s b s', I s → P b → f s b = .ok s' → I s' ∧ q s' = q s + δ b) :
    ∀ {l : List β} {s s' : σ}, I s → (∀ b ∈ l, P b) → l.foldlM f s = .ok s' →
      I s' ∧ q s' = q s + (l.map δ).sum := by
  intro l
  induction l with
  | nil =>
    intro s s' hs _ h
    cases h
    exact ⟨hs, by simp⟩
  | cons b l ih =>
    intro s s' hs hl h
    rw [List.foldlM_cons] at h
    -- the first step succeeded, or the run would have stopped there
    cases hb : f s b with
    | error e =>
      rw [hb] at h
      cases h
    | ok mid =>
      rw [hb] at h
      obtain ⟨hmid, hq⟩ := hf s b mid hs (hl b List.mem_cons_self) hb
      obtain ⟨hs', hq'⟩ := ih hmid (fun x hx => hl x (List.mem_cons_of_mem b hx)) h
      refine ⟨hs', ?_⟩
      rw [hq', hq, List.map_cons, List.sum_cons, add_assoc]

theorem foldlM_invariant {ε β : Type} (I : σ → Prop) (P : β → Prop) {f : σ → β → Except ε σ}
    (hf : ∀ s b s', I s → P b → f s b = .ok s' → I s') {l : List β} {s s' : σ} (hs : I s)
    (hl : ∀ b ∈ l, P b) (h : l.foldlM f s = .ok s') : I s' :=
  (foldlM_accumulate I P (fun _ => (0 : ℕ)) (fun _ => 0)
    (fun x b x' hx hb hstep => ⟨hf x b x' hx hb hstep, rfl⟩) hs hl h).1

/-! ## Search loops

A `do … while` loop that walks through positions acts on the position it stands on when a flag
says so, moves to the next position, which comes with its own flag, and goes on while the new
position passes a test. When `trail a` lists the flagged positions the loop reaches after `a`
(`Trail`), the loop is a fold of its body over them: a run that returns is one
(`doWhile_eq_foldlM_of_ok`), and with fuel above a measure that every step lowers the loop
returns whenever the fold does (`doWhile_eq_foldlM`). -/

section DoWhile

variable {ε α : Type} (outOfFuel : ε) (body : σ → α → Except ε σ) (next : α → Bool × α)
  (continues : α → Bool)

/-- The loop with `fuel` iterations; out of fuel it fails with `outOfFuel`. -/
def doWhile : Nat → σ → Bool → α → Except ε σ
  | 0, _, _, _ => throw outOfFuel
  | fuel + 1, s, flag, a =>
    (if flag then body s a else pure s) >>= fun s =>
      let n := next a
      if continues n.2 then doWhile fuel s n.1 n.2 else pure s

/-- From every position of `P` the loop moves to a position of `P`, and `trail` lists the
flagged positions it reaches from there on, in order. -/
def Trail (P : α → Prop) (trail : α → List α) : Prop :=
  ∀ a, P a → P (next a).2 ∧
    trail a = if continues (next a).2 then (if (next a).1 then [(next a).2] else []) ++ trail (next a).2
      else []

variable {outOfFuel body next continues}

theorem Trail.intro {P : α → Prop} {trail : α → List α}
    (h : ∀ a, P a → ∀ n, next a = n → P n.2 ∧
      trail a = if continues n.2 then (if n.1 then [n.2] else []) ++ trail n.2 else []) :
    Trail next continues P trail :=
  fun a ha => h a ha _ rfl

theorem foldlM_flag (flag : Bool) (a : α) (l : List α) (s : σ) :
    ((if flag then [a] else []) ++ l).foldlM body s =
      (if flag then body s a else pure s) >>= fun s₁ => l.foldlM body s₁ := by
  cases flag <;> simp [List.foldlM_cons]

theorem doWhile_eq_foldlM_of_ok {P : α → Prop} {trail : α → List α}
    (htrail : Trail next continues P trail) :
    ∀ {fuel : Nat} {s s' : σ} {flag : Bool} {a : α}, P a →
      doWhile outOfFuel body next continues fuel s flag a = .ok s' →
      ((if flag then [a] else []) ++ trail a).foldlM body s = .ok s' := by
  intro fuel
  induction fuel with
  | zero =>
    intro s s' flag a _ h
    cases h
  | succ fuel ih =>
    intro s s' flag a ha h
    obtain ⟨hnext, htr⟩ := htrail a ha
    rw [foldlM_flag]
    rw [doWhile] at h
    cases h₁ : (if flag then body s a else pure s) with
    | error e =>
      rw [h₁] at h
      cases h
    | ok s₁ =>
      rw [h₁] at h
      change (trail a).foldlM body s₁ = .ok s'
      change (if continues (next a).2 then doWhile outOfFuel body next continues fuel s₁ (next a).1
        (next a).2 else pure s₁) = .ok s' at h
      rw [htr]
      by_cases hc : continues (next a).2
      · rw [if_pos hc] at h ⊢
        exact ih hnext h
      · rw [if_neg hc] at h ⊢
        exact h

end DoWhile

/-- The system of a step function that may panic: a panic has no next state. -/
def ofOption (init : σ → Prop) (f : σ → α → Option σ) : System σ α where
  init := init
  step s a s' := f s a = some s'

/-- Run a step function that may panic on a list of actions. -/
def runOption (f : σ → α → Option σ) (s : σ) (as : List α) : Option σ := as.foldlM f s

theorem reachable_runOption {init : σ → Prop} {f : σ → α → Option σ} {s s' : σ}
    (hs : Reachable (ofOption init f) s) {as : List α} (h : runOption f s as = some s') :
    Reachable (ofOption init f) s' := by
  induction as generalizing s with
  | nil =>
    cases h
    exact hs
  | cons a as ih =>
    obtain ⟨s₁, h₁, hrest⟩ := Option.bind_eq_some_iff.1 h
    exact ih (.step hs h₁) hrest

end Transition
