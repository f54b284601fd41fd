import ConcordBft.Lib.Machine
import Mathlib.Tactic.Common

set_option autoImplicit false

/-! # The queue of incoming messages (`IncomingMsgsStorage.cpp`)

Any thread pushes messages into the protected queues, each time under the lock. The main thread
pops from its own two queues, internal messages first, and swaps them with the protected ones when
both are empty. Over every interleaving this is a queue of internal messages that loses none, and a
bounded queue of external ones. -/

namespace ConcordBft

/-- Queues of external messages `E` and internal messages `I`. The time of the last overflow warning
    is left out, it only decides what is logged. -/
structure IncomingMsgsStorage (E I : Type) where
  protectedExternal : List E := []
  protectedInternal : List I := []
  localExternal : List E := []
  localInternal : List I := []
deriving DecidableEq, Repr

namespace IncomingMsgsStorage

variable {E I : Type}

/-- `false` tells that the message was ignored. -/
def pushExternalMsg (maxNumberOfPendingExternalMsgs : ℕ) (q : IncomingMsgsStorage E I) (m : E) :
    IncomingMsgsStorage E I × Bool :=
  if maxNumberOfPendingExternalMsgs ≤ q.protectedExternal.length then (q, false)
  else ({ q with protectedExternal := q.protectedExternal ++ [m] }, true)

variable (q : IncomingMsgsStorage E I)

/-- A message from a background thread. -/
def pushInternalMsg (m : I) : IncomingMsgsStorage E I :=
  { q with protectedInternal := q.protectedInternal ++ [m] }

/-- Internal messages come first. -/
def popThreadLocal : IncomingMsgsStorage E I × Option (E ⊕ I) :=
  match q.localInternal, q.localExternal with
  | iMsg :: rest, _ => ({ q with localInternal := rest }, some (.inr iMsg))
  | [], eMsg :: rest => ({ q with localExternal := rest }, some (.inl eMsg))
  | [], [] => (q, none)

def noNewMessage : Bool :=
  q.protectedExternal.isEmpty && q.protectedInternal.isEmpty

def swapQueues : IncomingMsgsStorage E I :=
  ⟨q.localExternal, q.localInternal, q.protectedExternal, q.protectedInternal⟩

/-! ## Interleavings -/

/-- The storage, and what was pushed and popped so far. -/
structure Run (E I : Type) where
  storage : IncomingMsgsStorage E I := {}
  /-- the main thread is in `wait_for` -/
  waiting : Bool := false
  /-- the external messages that were pushed, and whether they were stored -/
  externals : List (E × Bool) := []
  internals : List I := []
  /-- what the calls of `pop` have returned -/
  results : List (Option (E ⊕ I)) := []
  /-- how many external messages were pushed before the last swap -/
  swappedAt : ℕ := 0
deriving DecidableEq, Repr

/-- The sections of code that hold the lock. -/
inductive Section (E I : Type) where
  | pushExternalMsg (m : E)
  | pushInternalMsg (m : I)
  | pop

namespace Run

variable (maxPending : ℕ) (r : Run E I)

/-- Returns what is in the queues of the main thread. -/
def popLocal : Run E I :=
  { r with
    storage := r.storage.popThreadLocal.1
    waiting := false
    results := r.results ++ [r.storage.popThreadLocal.2] }

/-- The main thread takes what was pushed. -/
def swap : Run E I :=
  { r with storage := r.storage.swapQueues, waiting := false, swappedAt := r.externals.length }

/-- `pop` runs to its end or to `wait_for`, and from there to its end. Only the main thread sees its
    own queues, so what it does to them belongs to the section of the lock before or after it. -/
def pop : Run E I :=
  if r.waiting then
    if r.storage.noNewMessage then { r with waiting := false, results := r.results ++ [none] }
    else r.swap.popLocal
  else if r.storage.popThreadLocal.2.isSome then r.popLocal
  else if r.storage.noNewMessage then { r with waiting := true }
  else r.swap.popLocal

/-- One critical section. -/
def step : Section E I → Run E I
  | .pushExternalMsg m =>
    { r with
      storage := (r.storage.pushExternalMsg maxPending m).1
      externals := r.externals ++ [(m, (r.storage.pushExternalMsg maxPending m).2)] }
  | .pushInternalMsg m =>
    { r with storage := r.storage.pushInternalMsg m, internals := r.internals ++ [m] }
  | .pop => r.pop

/-- Any interleaving of sections. -/
abbrev Reaches : Run E I → Run E I → Prop :=
  Machine.Reaches (fun r a => some (step maxPending r a)) fun _ _ => True

/-- The messages that were not ignored. -/
def stored (externals : List (E × Bool)) : List E := (externals.filter (·.2)).map (·.1)

/-- The external messages among the results of `pop`. -/
def poppedExternal (results : List (Option (E ⊕ I))) : List E :=
  results.filterMap fun x => x.bind Sum.getLeft?

def poppedInternal (results : List (Option (E ⊕ I))) : List I :=
  results.filterMap fun x => x.bind Sum.getRight?

@[simp] theorem stored_append (ms ms' : List (E × Bool)) :
    stored (ms ++ ms') = stored ms ++ stored ms' := by
  simp [stored]

@[simp] theorem poppedExternal_concat (results : List (Option (E ⊕ I))) (x : Option (E ⊕ I)) :
    poppedExternal (results ++ [x]) = poppedExternal results ++ (x.bind Sum.getLeft?).toList := by
  cases h : x.bind Sum.getLeft? <;> simp [poppedExternal, h]

@[simp] theorem poppedInternal_concat (results : List (Option (E ⊕ I))) (x : Option (E ⊕ I)) :
    poppedInternal (results ++ [x]) = poppedInternal results ++ (x.bind Sum.getRight?).toList := by
  cases h : x.bind Sum.getRight? <;> simp [poppedInternal, h]

variable {maxPending r} {r' r'' : Run E I}

/-- Nothing is lost, doubled or reordered. -/
structure Inv (maxPending : ℕ) (r : Run E I) : Prop where
  internal : r.internals =
    poppedInternal r.results ++ (r.storage.localInternal ++ r.storage.protectedInternal)
  external : stored r.externals =
    poppedExternal r.results ++ (r.storage.localExternal ++ r.storage.protectedExternal)
  sinceSwap : r.storage.protectedExternal = stored (r.externals.drop r.swappedAt)
  swappedAt_le : r.swappedAt ≤ r.externals.length
  protected_le : r.storage.protectedExternal.length ≤ maxPending
  local_le : r.storage.localExternal.length ≤ maxPending
  drained : r.waiting = true → r.storage.localExternal = [] ∧ r.storage.localInternal = []

/-- Internal message number `n` was pushed when the external messages `before` had been popped or
    swapped in: it is popped, or swapped in behind all of them, or they are popped first. -/
def Behind (n : ℕ) (before : List E) (r : Run E I) : Prop :=
  n < (poppedInternal r.results).length ∨
    (n < (poppedInternal r.results).length + r.storage.localInternal.length ∧
      poppedExternal r.results = before) ∨
    (n < r.internals.length ∧ poppedExternal r.results ++ r.storage.localExternal = before)

/-- What the sections keep. -/
def Kept (maxPending : ℕ) (r r' : Run E I) : Prop :=
  Inv maxPending r' ∧ ∀ n before, Behind n before r → Behind n before r'

theorem Kept.trans (h : Kept maxPending r r') (h' : Kept maxPending r' r'') :
    Kept maxPending r r'' :=
  ⟨h'.1, fun n before hb => h'.2 n before (h.2 n before hb)⟩

theorem popThreadLocal_isSome {q : IncomingMsgsStorage E I} :
    q.popThreadLocal.2.isSome = true ↔ ¬ (q.localExternal = [] ∧ q.localInternal = []) := by
  unfold popThreadLocal
  split <;> simp_all

theorem Inv.popLocal (h : Inv maxPending r) (hsome : r.storage.popThreadLocal.2.isSome = true) :
    Kept maxPending r r.popLocal := by
  have hinternal := h.internal
  have hexternal := h.external
  have hle := h.local_le
  unfold Run.popLocal
  unfold popThreadLocal at hsome ⊢
  split at hsome
  next iMsg rest hI =>
    rw [hI] at hinternal
    refine ⟨{ h with internal := ?_, external := ?_, drained := nofun }, fun n before hb => ?_⟩
    · simpa using hinternal
    · simpa using hexternal
    · simp only [Behind, hI] at hb
      rcases hb with hpopped | ⟨hlt, hbefore⟩ | hwaits
      · exact Or.inl (by simpa using Nat.lt_succ_of_lt hpopped)
      · refine Or.inr (Or.inl ⟨?_, by simpa using hbefore⟩)
        simpa [Nat.add_assoc, Nat.add_comm] using hlt
      · exact Or.inr (Or.inr (by simpa using hwaits))
  next eMsg rest hI hE =>
    rw [hE] at hexternal hle
    refine ⟨{ h with internal := ?_, external := ?_, local_le := ?_, drained := nofun },
      fun n before hb => ?_⟩
    · simpa using hinternal
    · simpa using hexternal
    · exact Nat.le_of_succ_le hle
    · simp only [Behind, hI, hE] at hb
      rcases hb with hpopped | ⟨hlt, -⟩ | hwaits
      · exact Or.inl (by simpa using hpopped)
      · exact Or.inl (by simpa using hlt)
      · exact Or.inr (Or.inr (by simpa using hwaits))
  next => simp at hsome

theorem swap_isSome (h : ¬ r.storage.noNewMessage = true) :
    r.swap.storage.popThreadLocal.2.isSome = true :=
  popThreadLocal_isSome.2 (by simpa [noNewMessage, swap, swapQueues] using h)

theorem popLocal_ne_false (h : r.storage.popThreadLocal.2.isSome = true) :
    r.popLocal.results ≠ r.results ++ [none] := by
  intro hfalse
  have hnone := List.singleton_inj.1 (List.append_cancel_left hfalse)
  simp [hnone] at h

/-- New messages are swapped in when the queues of the main thread are empty. -/
theorem Inv.swapAndPop (h : Inv maxPending r)
    (hlocal : r.storage.localExternal = [] ∧ r.storage.localInternal = [])
    (hnew : ¬ r.storage.noNewMessage = true) : Kept maxPending r r.swap.popLocal := by
  obtain ⟨hE, hI⟩ := hlocal
  have hinternal := h.internal
  have hexternal := h.external
  rw [hI] at hinternal
  have hswap : Kept maxPending r r.swap := by
    refine ⟨⟨?_, ?_, ?_, Nat.le_refl _, ?_, h.protected_le, nofun⟩, fun n before hb => ?_⟩
    · simpa [Run.swap, swapQueues, hI] using hinternal
    · simpa [Run.swap, swapQueues, hE] using hexternal
    · simp [Run.swap, swapQueues, hE, stored]
    · simp [Run.swap, swapQueues, hE]
    · rcases hb with hpopped | ⟨hlt, -⟩ | ⟨hlt, hbefore⟩
      · exact Or.inl hpopped
      · rw [hI] at hlt
        exact Or.inl hlt
      · -- the messages in front have been popped, and this one is swapped in
        rw [hinternal, List.length_append] at hlt
        rw [hE, List.append_nil] at hbefore
        exact Or.inr (Or.inl ⟨hlt, hbefore⟩)
  exact hswap.trans (hswap.1.popLocal (swap_isSome hnew))

theorem Inv.step (h : Inv maxPending r) (a : Section E I) :
    Kept maxPending r (step maxPending r a) := by
  have hinternal := h.internal
  have hexternal := h.external
  cases a with
  | pushExternalMsg m =>
    have hle : ∀ b, r.swappedAt ≤ (r.externals ++ [(m, b)]).length := fun b =>
      Nat.le_trans h.swappedAt_le (by simp)
    unfold Run.step pushExternalMsg
    split_ifs with hfull
    · refine ⟨{ h with external := ?_, sinceSwap := ?_, swappedAt_le := hle _ }, fun _ _ hb => hb⟩
      · simpa [stored] using hexternal
      · rw [List.drop_append_of_le_length h.swappedAt_le]
        simpa [stored] using h.sinceSwap
    · refine ⟨{ h with
        external := ?_, sinceSwap := ?_, swappedAt_le := hle _, protected_le := ?_ },
        fun _ _ hb => hb⟩
      · rw [stored_append, hexternal]
        simp [stored]
      · rw [List.drop_append_of_le_length h.swappedAt_le]
        simp [stored, h.sinceSwap]
      · simpa using Nat.succ_le_of_lt (Nat.not_le.1 hfull)
  | pushInternalMsg m =>
    refine ⟨{ h with internal := ?_ }, fun n before hb => ?_⟩
    · simp [Run.step, pushInternalMsg, hinternal]
    · rcases hb with hpopped | hswapped | ⟨hlt, hbefore⟩
      · exact Or.inl hpopped
      · exact Or.inr (Or.inl hswapped)
      · exact Or.inr (Or.inr ⟨by simpa [Run.step] using Nat.lt_succ_of_lt hlt, hbefore⟩)
  | pop =>
    show Kept maxPending r r.pop
    unfold Run.pop
    split_ifs with hwaiting hnew hsome hnew
    · refine ⟨{ h with internal := ?_, external := ?_, drained := nofun }, fun n before hb => ?_⟩
      · simpa using hinternal
      · simpa using hexternal
      · simpa [Behind] using hb
    · exact h.swapAndPop (h.drained hwaiting) hnew
    · exact h.popLocal hsome
    · have hlocal := not_not.1 (mt popThreadLocal_isSome.2 hsome)
      exact ⟨{ h with drained := fun _ => hlocal }, fun _ _ hb => hb⟩
    · exact h.swapAndPop (not_not.1 (mt popThreadLocal_isSome.2 hsome)) hnew

theorem Inv.reaches (h : Inv maxPending r) (hr : Reaches maxPending r r') :
    Kept maxPending r r' := by
  refine Machine.Reaches.invariant (Kept maxPending r) ⟨h, fun _ _ hb => hb⟩ ?_ hr
  intro r₁ a r₂ h₁ _ hnext
  obtain rfl := Option.some.inj hnext
  exact h₁.trans (h₁.1.step a)

theorem inv_start : Inv maxPending ({} : Run E I) :=
  ⟨rfl, rfl, rfl, Nat.le_refl _, Nat.zero_le _, Nat.zero_le _, nofun⟩

/-- **The storage is two queues.** In every state of every interleaving: the internal messages
    popped and waiting are those pushed, in that order; the external ones are those pushed and not
    ignored, and at most `2 * maxPending` of them wait; one is ignored only if `maxPending` of those
    pushed since the last swap still wait; `pop` returns nothing only if nothing waits; and until an
    internal message is popped, only external messages that were swapped in before it was pushed
    are. -/
theorem refines_queues (hr : Reaches maxPending {} r) :
    r.internals = poppedInternal r.results ++
      (r.storage.localInternal ++ r.storage.protectedInternal) ∧
    stored r.externals = poppedExternal r.results ++
      (r.storage.localExternal ++ r.storage.protectedExternal) ∧
    r.storage.localExternal.length + r.storage.protectedExternal.length ≤ 2 * maxPending ∧
    (∀ m, (r.storage.pushExternalMsg maxPending m).2 = false →
      r.storage.protectedExternal = stored (r.externals.drop r.swappedAt) ∧
      maxPending ≤ r.storage.protectedExternal.length) ∧
    (r.pop.results = r.results ++ [none] → r.storage = {}) ∧
    ∀ m r', Reaches maxPending (step maxPending r (.pushInternalMsg m)) r' →
      (poppedInternal r'.results).length ≤ r.internals.length →
      poppedExternal r'.results <+: poppedExternal r.results ++ r.storage.localExternal := by
  obtain ⟨h, -⟩ := inv_start.reaches hr
  refine ⟨h.internal, h.external, ?_, ?_, ?_, ?_⟩
  · rw [Nat.two_mul]
    exact Nat.add_le_add h.local_le h.protected_le
  · intro m hignored
    refine ⟨h.sinceSwap, ?_⟩
    by_contra hroom
    simp [pushExternalMsg, hroom] at hignored
  · intro hnone
    unfold Run.pop at hnone
    split_ifs at hnone with hwaiting hnew hsome hnew
    · obtain ⟨hE, hI⟩ := h.drained hwaiting
      rcases hq : r.storage with ⟨pE, pI, lE, lI⟩
      simp_all [noNewMessage]
    · exact absurd hnone (popLocal_ne_false (swap_isSome hnew))
    · exact absurd hnone (popLocal_ne_false hsome)
    · simp at hnone
    · exact absurd hnone (popLocal_ne_false (swap_isSome hnew))
  · intro m r' hr' hwaits
    obtain ⟨h₁, -⟩ := h.step (.pushInternalMsg m)
    have hbehind : Behind r.internals.length (poppedExternal r.results ++ r.storage.localExternal)
        (step maxPending r (.pushInternalMsg m)) :=
      Or.inr (Or.inr ⟨by simp [Run.step], rfl⟩)
    rcases (h₁.reaches hr').2 _ _ hbehind with hpopped | ⟨-, heq⟩ | ⟨-, heq⟩
    · omega
    · exact ⟨[], by rw [List.append_nil, heq]⟩
    · exact ⟨_, heq⟩

/-- An internal message overtakes the external one that was pushed before it, and a second external
    message is ignored. -/
theorem refines_queues_one_pending :
    ∃ r : Run ℕ ℕ, Reaches 1 {} r ∧ r.results = [some (.inr 7), some (.inl 5), none] ∧
      r.externals = [(5, true), (6, false)] ∧
      stored r.externals = poppedExternal r.results ++ [] := by
  have hrun : Reaches 1 ({} : Run ℕ ℕ) ⟨{}, false, [(5, true), (6, false)], [7],
      [some (.inr 7), some (.inl 5), none], 2⟩ :=
    Machine.reaches_of_runSteps _ [.pushExternalMsg 5, .pushExternalMsg 6, .pushInternalMsg 7, .pop,
      .pop, .pop, .pop] (by decide)
  exact ⟨_, hrun, rfl, rfl, (refines_queues hrun).2.1⟩

end Run

end IncomingMsgsStorage

end ConcordBft
