import Mathlib.Data.List.Forall2

set_option autoImplicit false

/-! # Code that may fail a check

A function of asserting code is a value of `Except ε α`: it returns, or it stops at the check named
by the error. `Meets allowed post x` says that `x` returns a value satisfying `post` or stops at a
check that `allowed` tolerates; with `allowed := fun _ => False` it says that `x` returns. The rules
follow the shape of the code: one for a check, one for sequencing, one for a conditional. -/

namespace Checked

variable {ε α β : Type}

/-- Stop with `e` unless the check holds. -/
def require (e : ε) (check : Prop) [Decidable check] : Except ε Unit :=
  if check then .ok () else .error e

/-- `x` returns a value satisfying `post`, or stops in a way that `allowed` tolerates. -/
inductive Meets (allowed : ε → Prop) (post : α → Prop) : Except ε α → Prop
  | ok {a : α} (h : post a) : Meets allowed post (.ok a)
  | error {e : ε} (h : allowed e) : Meets allowed post (.error e)

variable {allowed : ε → Prop} {post : α → Prop} {x : Except ε α} {f : α → Except ε β}
  {post' : β → Prop} {check : Prop} {e : ε}

theorem meets_pure {a : α} (h : post a) : Meets allowed post (pure a : Except ε α) := .ok h

section

variable (h : Meets allowed post x)
include h

theorem Meets.of_ok {a : α} (hx : x = .ok a) : post a := by
  subst hx
  cases h with
  | ok h => exact h

theorem Meets.of_error (hx : x = .error e) : allowed e := by
  subst hx
  cases h with
  | error h => exact h

theorem Meets.mono {post' : α → Prop} (hpost : ∀ a, post a → post' a) : Meets allowed post' x := by
  cases h with
  | ok h => exact .ok (hpost _ h)
  | error h => exact .error h

/-- More ways to stop may be tolerated. -/
theorem Meets.weaken {allowed' : ε → Prop} (hallowed : ∀ e, allowed e → allowed' e) :
    Meets allowed' post x := by
  cases h with
  | ok h => exact .ok h
  | error h => exact .error (hallowed _ h)

theorem Meets.bind (hf : ∀ a, post a → Meets allowed post' (f a)) :
    Meets allowed post' (x >>= f) := by
  cases h with
  | ok h => exact hf _ h
  | error h => exact .error h

/-- Sequencing that remembers what the first part returned. -/
theorem Meets.bind_eq (hf : ∀ a, x = .ok a → post a → Meets allowed post' (f a)) :
    Meets allowed post' (x >>= f) := by
  cases h with
  | ok h => exact hf _ rfl h
  | error h => exact .error h

end

theorem Meets.returns (h : Meets (fun _ => False) post x) : ∃ a, x = .ok a ∧ post a := by
  cases h with
  | ok h => exact ⟨_, rfl, h⟩
  | error h => exact h.elim

theorem meets_ite {c : Prop} {_ : Decidable c} {y : Except ε α}
    (ht : c → Meets allowed post x) (hf : ¬ c → Meets allowed post y) :
    Meets allowed post (if c then x else y) := by
  split_ifs with h
  · exact ht h
  · exact hf h

theorem require_eq_ok_iff {_ : Decidable check} {u : Unit} : require e check = .ok u ↔ check := by
  unfold require
  by_cases h : check <;> simp [h]

/-- A check either holds afterwards or stops the code with its own error. -/
theorem meets_require {_ : Decidable check} (h : ¬ check → allowed e) :
    Meets allowed (fun _ => check) (require e check) := by
  unfold require
  split_ifs with hc
  · exact .ok hc
  · exact .error (h hc)

theorem meets_require_bind {_ : Decidable check} {f : Unit → Except ε β} (he : ¬ check → allowed e)
    (hf : check → Meets allowed post' (f ())) : Meets allowed post' (require e check >>= f) :=
  (meets_require he).bind fun _ hc => hf hc

theorem meets_of_eq_ok {a : α} (h : x = .ok a) (ha : post a) : Meets allowed post x := by
  rw [h]
  exact .ok ha

theorem meets_ok_bind {a : α} (h : x = .ok a) (hf : Meets allowed post' (f a)) :
    Meets allowed post' (x >>= f) := by
  subst h
  exact hf

theorem require_of {_ : Decidable check} (h : check) : require e check = .ok () := by
  simp [require, h]

theorem eq_ok_of_toOption {a : α} (h : x.toOption = some a) : x = .ok a := by
  cases x with
  | ok b => exact congrArg Except.ok (Option.some.inj h)
  | error e => exact absurd h (by simp [Except.toOption])

theorem bind_eq_ok {b : β} (h : (x >>= f) = .ok b) : ∃ a, x = .ok a ∧ f a = .ok b := by
  cases x with
  | ok a => exact ⟨a, rfl, h⟩
  | error e => exact absurd h (by simp [Bind.bind, Except.bind])

/-- A returning sequence passed its first check. -/
theorem require_bind_eq_ok {_ : Decidable check} {f : Unit → Except ε β} {b : β}
    (h : (require e check >>= f) = .ok b) : check ∧ f () = .ok b := by
  obtain ⟨u, hu, hf⟩ := bind_eq_ok h
  exact ⟨require_eq_ok_iff.1 hu, hf⟩

/-! ## Loops -/

/-- A loop over a list. The invariant may speak about the part of the list that is done. -/
theorem meets_foldlM {σ : Type} {f : σ → α → Except ε σ} (I : List α → σ → Prop) {as : List α}
    {s : σ} (h0 : I [] s)
    (hstep : ∀ done a rest s, as = done ++ a :: rest → I done s →
      Meets allowed (I (done ++ [a])) (f s a)) :
    Meets allowed (I as) (as.foldlM f s) := by
  suffices h : ∀ done rest s, as = done ++ rest → I done s → Meets allowed (I as) (rest.foldlM f s)
    from h [] as s rfl h0
  intro done rest
  induction rest generalizing done with
  | nil =>
    intro s has hI
    rw [List.append_nil] at has
    subst has
    exact .ok hI
  | cons a rest ih =>
    intro s has hI
    refine (hstep done a rest s has hI).bind fun s' hs' => ?_
    exact ih (done ++ [a]) s' (by rw [has, List.append_assoc]; rfl) hs'

theorem meets_mapM (R : α → β → Prop) {as : List α} (h : ∀ a ∈ as, Meets allowed (R a) (f a)) :
    Meets allowed (List.Forall₂ R as) (as.mapM f) := by
  induction as with
  | nil => exact .ok List.Forall₂.nil
  | cons a as ih =>
    rw [List.mapM_cons]
    refine (h a List.mem_cons_self).bind fun b hb => ?_
    refine (ih fun a' ha' => h a' (List.mem_cons_of_mem a ha')).bind fun bs hbs => ?_
    exact .ok (List.Forall₂.cons hb hbs)

@[simp] theorem ok_bind (a : α) (f : α → Except ε β) :
    ((Except.ok a : Except ε α) >>= f) = f a := rfl

@[simp] theorem error_bind (e : ε) (f : α → Except ε β) :
    ((Except.error e : Except ε α) >>= f) = .error e := rfl

end Checked
