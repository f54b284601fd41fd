import ConcordBft.Lib.Checked
import ConcordBft.Types

set_option autoImplicit false

/-! # Assertions (`assertUtils.hpp`)

`Assert(expr)` ends the process when `expr` is false. A modelled function that can reach one returns
`Except Failure`; the assertions that a result of this development is about have a name of their
own, the others share `assertion`. -/

namespace ConcordBft

/-- How the code of a replica stops. -/
inductive Failure where
  /-- Any assertion without a name of its own. -/
  | assertion
  /-- `SequenceWithActiveWindow::get` outside the active window. -/
  | outsideActiveWindow
  /-- The comparison of `primaryLastUsedSeqNum` with `lastExecutedSeqNum` in
      `tryToSendPrePrepareMsg` or of the two bounds in `tryToStartSlowPaths`. -/
  | primaryBehindExecution
  /-- `pps.hasFullProof()` in `executeRequestsInPrePrepareMsg`. -/
  | noFullProof
  /-- Not an assertion: code that the model does not follow, because no run gets there. -/
  | notModelled
deriving DecidableEq, Repr

/-- `Assert(expr)` -/
def Assert (expr : Prop) [Decidable expr] : Except Failure Unit :=
  Checked.require Failure.assertion expr

/-- Code that fails no other check than an `Assert`. -/
def Asserts {α : Type} (post : α → Prop) (x : Except Failure α) : Prop :=
  Checked.Meets (fun e => e = Failure.assertion) post x

theorem Asserts.bind {α β : Type} {post : α → Prop} {post' : β → Prop} {x : Except Failure α}
    {f : α → Except Failure β} (h : Asserts post x) (hf : ∀ a, post a → Asserts post' (f a)) :
    Asserts post' (x >>= f) :=
  Checked.Meets.bind h hf

variable {α : Type}

theorem Asserts.mono {post post' : α → Prop} {x : Except Failure α} (h : Asserts post x)
    (hpost : ∀ a, post a → post' a) : Asserts post' x :=
  Checked.Meets.mono h hpost

theorem Asserts.ok {post : α → Prop} {a : α} (h : post a) :
    Asserts post (pure a : Except Failure α) := Checked.Meets.ok h

theorem asserts_error {post : α → Prop} :
    Asserts post (.error .assertion : Except Failure α) := Checked.Meets.error rfl

theorem asserts_bind {post : α → Prop} {expr : Prop} {_ : Decidable expr}
    {f : Unit → Except Failure α} (hf : expr → Asserts post (f ())) :
    Asserts post (Assert expr >>= f) :=
  Checked.meets_require_bind (fun _ => rfl) hf

theorem assert_bind_of {expr : Prop} {_ : Decidable expr} {f : Unit → Except Failure α} (h : expr) :
    (Assert expr >>= f) = f () := by
  rw [Assert, Checked.require_of h]
  rfl

theorem asserts_assert {post : Unit → Prop} {expr : Prop} {_ : Decidable expr}
    (h : expr → post ()) : Asserts post (Assert expr) := by
  have hreq : Asserts (fun _ => expr) (Assert expr) := Checked.meets_require fun _ => rfl
  exact hreq.mono fun _ he => h he

theorem asserts_ite {post : α → Prop} {c : Prop} {_ : Decidable c} {x y : Except Failure α}
    (ht : c → Asserts post x) (hf : ¬ c → Asserts post y) : Asserts post (if c then x else y) :=
  Checked.meets_ite ht hf

/-- Does `x` stop with the failure `e`? -/
def failsWith {α : Type} (e : Failure) : Except Failure α → Bool
  | .error e' => decide (e' = e)
  | .ok _ => false

theorem eq_error_of_failsWith {e : Failure} {x : Except Failure α} (h : failsWith e x = true) :
    x = .error e := by
  cases x with
  | error e' => rw [of_decide_eq_true h]
  | ok a => exact absurd h (by simp [failsWith])

end ConcordBft
