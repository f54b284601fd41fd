import Mathlib.Logic.Relation

set_option autoImplicit false

/-! # Runs of a machine whose steps may be guarded

A machine is a partial step function `next : σ → α → Option σ`; `none` means that the step cannot be
taken. A run may be restricted to the steps that meet a guard on the state they start from and on
their label. `Reaches` is the reflexive transitive closure of such steps, and `Reaches.invariant` is
the only induction over runs. -/

namespace Machine

variable {σ α : Type*}

/-- A step from `s` to `s'` whose label meets the guard `ok` in `s`. -/
def GuardedStep (next : σ → α → Option σ) (ok : σ → α → Prop) (s s' : σ) : Prop :=
  ∃ a, ok s a ∧ next s a = some s'

/-- `s'` is reached from `s` by steps that all meet the guard. -/
def Reaches (next : σ → α → Option σ) (ok : σ → α → Prop) : σ → σ → Prop :=
  Relation.ReflTransGen (GuardedStep next ok)

variable {next : σ → α → Option σ} {ok : σ → α → Prop} {s t : σ}

theorem Reaches.refl (s : σ) : Reaches next ok s s := Relation.ReflTransGen.refl

theorem Reaches.snoc {s t u : σ} {a : α} (h : Reaches next ok s t) (hok : ok t a)
    (hn : next t a = some u) : Reaches next ok s u :=
  Relation.ReflTransGen.tail h ⟨a, hok, hn⟩

/-- **Invariant rule.** What holds at the start and is kept by every guarded step holds in every
    state reached. -/
theorem Reaches.invariant (I : σ → Prop) (h0 : I s)
    (hstep : ∀ u a u', I u → ok u a → next u a = some u' → I u') (h : Reaches next ok s t) :
    I t := by
  induction h with
  | refl => exact h0
  | tail _ hs ih =>
    obtain ⟨a, hok, hn⟩ := hs
    exact hstep _ a _ ih hok hn

theorem Reaches.mono {ok' : σ → α → Prop} (hle : ∀ u a, ok u a → ok' u a) (h : Reaches next ok s t) :
    Reaches next ok' s t := by
  refine Relation.ReflTransGen.mono ?_ _ _ h
  rintro u u' ⟨a, hok, hn⟩
  exact ⟨a, hle u a hok, hn⟩

/-- Takes the steps of a list of labels one after the other. -/
def runSteps (next : σ → α → Option σ) : σ → List α → Option σ
  | s, [] => some s
  | s, a :: as => (next s a).bind fun s' => runSteps next s' as

theorem runSteps_append (next : σ → α → Option σ) (s : σ) (as bs : List α) :
    runSteps next s (as ++ bs) = (runSteps next s as).bind fun t => runSteps next t bs := by
  induction as generalizing s with
  | nil => rfl
  | cons a as ih =>
    show ((next s a).bind fun s' => runSteps next s' (as ++ bs)) = _
    cases h : next s a with
    | none => simp [runSteps, h]
    | some s' => simp [runSteps, h, ih]

/-- A run that takes a list of labels takes each of them from a state that it reaches before. -/
theorem runSteps_prefix {next : σ → α → Option σ} {as : List α} {a : α} {bs : List α}
    (h : runSteps next s (as ++ a :: bs) = some t) :
    ∃ u u', runSteps next s as = some u ∧ next u a = some u' := by
  rw [runSteps_append, Option.bind_eq_some_iff] at h
  obtain ⟨u, hu, hrest⟩ := h
  simp only [runSteps, Option.bind_eq_some_iff] at hrest
  obtain ⟨u', hu', -⟩ := hrest
  exact ⟨u, u', hu, hu'⟩

/-- A list of labels that can be taken reaches its last state. -/
theorem reaches_of_runSteps (next : σ → α → Option σ) (as : List α)
    (h : runSteps next s as = some t) : Reaches next (fun _ _ => True) s t := by
  induction as generalizing s with
  | nil =>
    simp only [runSteps, Option.some.injEq] at h
    exact h ▸ Reaches.refl s
  | cons a as ih =>
    simp only [runSteps, Option.bind_eq_some_iff] at h
    obtain ⟨s', hs', hrest⟩ := h
    exact Relation.ReflTransGen.head ⟨a, trivial, hs'⟩ (ih hrest)

section

variable (test : σ → α → Bool) (htest : ∀ u a, test u a = true → ok u a) (as : List α)
include test htest as

/-- A list of labels that all pass a test for the guard reaches its last state by guarded steps. -/
theorem reaches_of_tested_runSteps
    (h : runSteps (fun u a => if test u a then next u a else none) s as = some t) :
    Reaches next ok s t := by
  refine Relation.ReflTransGen.mono ?_ _ _ (reaches_of_runSteps _ as h)
  rintro u u' ⟨a, -, hn⟩
  dsimp only at hn
  by_cases hpass : test u a = true
  · rw [if_pos hpass] at hn
    exact ⟨a, htest u a hpass, hn⟩
  · rw [if_neg hpass] at hn
    simp at hn

/-- A run that can be evaluated: its labels all pass the test, and its last state has a property. -/
theorem exists_reaches_of_test {P : σ → Prop} [DecidablePred P] {s : σ}
    (h : (runSteps (fun u a => if test u a then next u a else none) s as).any
      (fun t => decide (P t)) = true) :
    ∃ t, Reaches next ok s t ∧ P t := by
  obtain ⟨t, ht, hP⟩ := (Option.any_eq_true _ _).1 h
  exact ⟨t, reaches_of_tested_runSteps test htest as ht, of_decide_eq_true hP⟩

end

theorem exists_reaches [∀ u a, Decidable (ok u a)] {P : σ → Prop} [DecidablePred P] {s : σ}
    (as : List α) (h : (runSteps (fun u a => if decide (ok u a) then next u a else none) s as).any
      (fun t => decide (P t)) = true) : ∃ t, Reaches next ok s t ∧ P t :=
  exists_reaches_of_test _ (fun _ _ => of_decide_eq_true) as h

end Machine
