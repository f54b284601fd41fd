import ConcordBft.Failure
import Mathlib.Algebra.BigOperators.Group.List.Lemmas
import Mathlib.Data.Nat.Size

set_option autoImplicit false

/-! # Multi-exponentiation (`FastMultExp.cpp`)

`fastMultExp` computes the sum of the multiples `e[i] * a[i]` bit by bit: from the highest bit down it
doubles the result and adds the points whose factor has the bit. `signers` is the list of the ids in
the order in which the loop over the signers visits them. -/

namespace ConcordBft.Threshsign

variable {G : Type} [AddCommGroup G]

/-- The inner loop: add the points whose factor has bit `j`. -/
def addPointsOfBit (signers : List ℕ) (a : ℕ → G) (e : ℕ → ℕ) (maxBits j : ℕ) (r : G) :
    Except Failure G :=
  signers.foldlM
    (fun r idx => do
      Assert ((e idx).size ≤ maxBits)
      pure (if (e idx).testBit j then r + a idx else r))
    r

/-- The outer loop, with the bits below the given one left. -/
def fastMultExpFrom (signers : List ℕ) (a : ℕ → G) (e : ℕ → ℕ) (maxBits : ℕ) :
    ℕ → G → Except Failure G
  | 0, r => pure r
  | j + 1, r => do
      let r ← addPointsOfBit signers a e maxBits j (r + r)
      fastMultExpFrom signers a e maxBits j r

def fastMultExp (signers : List ℕ) (a : ℕ → G) (e : ℕ → ℕ) (maxBits : ℕ) : Except Failure G :=
  fastMultExpFrom signers a e maxBits maxBits 0

variable {signers : List ℕ} {a : ℕ → G} {e : ℕ → ℕ} {maxBits : ℕ}

section

variable (hbits : ∀ i ∈ signers, (e i).size ≤ maxBits)
include hbits

theorem addPointsOfBit_eq (j : ℕ) (r : G) : addPointsOfBit signers a e maxBits j r =
      .ok (r + (signers.map fun i => ((e i).testBit j).toNat • a i).sum) := by
  unfold addPointsOfBit
  induction signers generalizing r with
  | nil => simp [pure, Except.pure]
  | cons i rest ih =>
    have hi := hbits i (List.mem_cons_self ..)
    have hrest := ih fun k hk => hbits k (List.mem_cons_of_mem _ hk)
    rw [List.foldlM_cons, Assert, Checked.require_of hi, List.map_cons]
    cases hb : (e i).testBit j with
    | false => simpa using hrest r
    | true => simpa [add_assoc, one_nsmul] using hrest (r + a i)

/-- With the bits below `j` left, the result holds the multiples by the higher bits. -/
theorem fastMultExpFrom_eq (j : ℕ) :
    fastMultExpFrom signers a e maxBits j (signers.map fun i => (e i / 2 ^ j) • a i).sum =
      .ok (signers.map fun i => e i • a i).sum := by
  induction j with
  | zero => simp [fastMultExpFrom, pure, Except.pure]
  | succ j ih =>
    have hstep : (signers.map fun i => (e i / 2 ^ (j + 1)) • a i).sum +
        (signers.map fun i => (e i / 2 ^ (j + 1)) • a i).sum +
          (signers.map fun i => ((e i).testBit j).toNat • a i).sum =
        (signers.map fun i => (e i / 2 ^ j) • a i).sum := by
      rw [← List.sum_map_add, ← List.sum_map_add]
      congr 1
      apply List.map_congr_left
      intro i _
      rw [← add_nsmul, ← add_nsmul]
      congr 1
      rw [pow_succ, ← Nat.div_div_eq_div_mul, Nat.testBit_eq_decide_div_mod_eq]
      rcases Nat.mod_two_eq_zero_or_one (e i / 2 ^ j) with hm | hm <;> simp [hm] <;> omega
    rw [fastMultExpFrom, addPointsOfBit_eq hbits, hstep]
    exact ih

/-- **`fastMultExp` is the sum of the multiples**, if every factor fits in the bits. -/
theorem fastMultExp_eq :
    fastMultExp signers a e maxBits = .ok (signers.map fun i => e i • a i).sum := by
  have hzero : (signers.map fun i => (e i / 2 ^ maxBits) • a i).sum = 0 := by
    apply List.sum_eq_zero
    intro x hx
    obtain ⟨i, hi, rfl⟩ := List.mem_map.1 hx
    rw [Nat.div_eq_of_lt (Nat.size_le.1 (hbits i hi)), zero_nsmul]
  have hloop := fastMultExpFrom_eq (a := a) hbits maxBits
  rw [hzero] at hloop
  exact hloop

end

end ConcordBft.Threshsign
