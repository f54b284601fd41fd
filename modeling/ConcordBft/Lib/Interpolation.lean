import Mathlib.LinearAlgebra.Lagrange

set_option autoImplicit false

/-! # Interpolation at zero

A polynomial of degree below the number of nodes is a fixed linear combination of its values at the
nodes; `weight s i` is the coefficient of the value at `i` in its value at zero. Polynomials given by
their list of coefficients are evaluated by Horner's rule. -/

namespace Interpolation

open Polynomial

variable {F : Type*} [Field F]

/-- The coefficient of the value at the node `i` in the value at zero. -/
def weight {ι : Type*} [DecidableEq ι] (s : Finset ι) (v : ι → F) (i : ι) : F :=
  ∏ j ∈ s.erase i, (0 - v j) / (v i - v j)

/-- **Reconstruction.** The value at zero from the values at the nodes. -/
theorem eval_zero_eq_sum {ι : Type*} [DecidableEq ι] {s : Finset ι} {v : ι → F}
    (hinj : Set.InjOn v s) {p : F[X]} (hdeg : p.degree < s.card) :
    p.eval 0 = ∑ i ∈ s, weight s v i * p.eval (v i) := by
  have hp := Lagrange.eq_interpolate hinj hdeg
  calc p.eval 0 = (Lagrange.interpolate s v fun i => p.eval (v i)).eval 0 := by rw [← hp]
    _ = ∑ i ∈ s, weight s v i * p.eval (v i) := by
        rw [Lagrange.interpolate_apply, eval_finsetSum]
        apply Finset.sum_congr rfl
        intro i _
        rw [eval_mul, Lagrange.basis, eval_prod, weight]
        simp [Lagrange.basisDivisor, div_eq_mul_inv, mul_comm]

/-- The polynomial with the given coefficients, the constant one first. -/
noncomputable def ofCoeffs : List F → F[X]
  | [] => 0
  | c :: rest => ofCoeffs rest * X + C c

theorem degree_ofCoeffs_lt (l : List F) : (ofCoeffs l).degree < l.length := by
  induction l with
  | nil => simp [ofCoeffs]
  | cons c rest ih =>
    rw [degree_lt_iff_coeff_zero] at ih ⊢
    intro m hm
    obtain ⟨m, rfl⟩ := Nat.exists_eq_add_of_le' (le_trans (Nat.succ_pos _) hm)
    have hrest := ih m (Nat.le_of_succ_le_succ hm)
    rw [ofCoeffs, coeff_add, coeff_mul_X, coeff_C_succ, hrest, add_zero]

/-- Horner's rule. -/
theorem eval_ofCoeffs (l : List F) (x : F) :
    (ofCoeffs l).eval x = l.foldr (fun c acc => acc * x + c) 0 := by
  induction l with
  | nil => simp [ofCoeffs]
  | cons c rest ih => simp [ofCoeffs, ih]

end Interpolation
