import ConcordBft.Failure
import ConcordBft.Lib.Interpolation
import Mathlib.Algebra.Field.ZMod
import Mathlib.Data.Nat.Cast.Field

set_option autoImplicit false

/-! # Lagrange coefficients (`LagrangeInterpolation.cpp`)

`lagrangeCoeffAccumReduced` computes the coefficients of a set of signers at zero. It multiplies in an
accumulator that is reduced only when it grows beyond the modulus, keeps the sign of every product
apart, and divides the common numerator by `i` exactly when it can. `signers` is the list of the ids
in the order in which the loops over the signers visit them. Big numbers are exact. -/

namespace ConcordBft.Threshsign

open Checked List

/-- A product `v * vAcc` of which only `v` is reduced. -/
structure AccumulatedBNT where
  v : ℕ
  vAcc : ℕ

namespace AccumulatedBNT

/-- The constructor: the product is one. -/
def one : AccumulatedBNT := { v := 1, vAcc := 1 }

variable (modulus : ℕ) (a : AccumulatedBNT)

/-- Multiplies the accumulated factors in. -/
def reduceAlways : AccumulatedBNT := { v := a.v * a.vAcc % modulus, vAcc := 1 }

def reduceIf : AccumulatedBNT := if modulus ≤ a.vAcc then a.reduceAlways modulus else a

/-- `Times` -/
def times (n : ℕ) : AccumulatedBNT :=
  ({ a with vAcc := a.vAcc * n } : AccumulatedBNT).reduceIf modulus

/-- The accumulated product. -/
def toBNT : ℕ := if 1 < a.vAcc then (a.reduceAlways modulus).v else a.v

end AccumulatedBNT

/-- `BNT::invertModPrime`: the residue whose product with `a` is one, and its assertion that this is
    so. -/
def invertModPrime (a p : ℕ) : Except Failure ℕ := do
  let inv := ((a : ZMod p)⁻¹).val
  Assert (a * inv % p = 1)
  pure inv

/-- One round of the loop over `j` for the denominator of the coefficient of `i`: multiply by
    `|i - j|` and remember the sign (`denomSign` is true for plus). -/
def denomRound (fieldOrder i : ℕ) (acc : AccumulatedBNT × Bool) (j : ℕ) : AccumulatedBNT × Bool :=
  if i = j then acc
  else if i > j then (acc.1.times fieldOrder (i - j), acc.2)
  else (acc.1.times fieldOrder (j - i), !acc.2)

/-- The common numerator without the factor `i`. It may have been reduced, and then need not be
    divisible by `i`. -/
def divideNumer (fieldOrder numerFinal i : ℕ) : Except Failure ℕ :=
  if numerFinal % i = 0 then pure (numerFinal / i)
  else do
    let inv ← invertModPrime i fieldOrder
    pure (numerFinal * inv % fieldOrder)

/-- The end of the computation of a coefficient: give the quotient its sign. -/
def applySign (fieldOrder numer : ℕ) (finalSign : ℤ) : Except Failure ℕ := do
  Assert (finalSign = -1 ∨ finalSign = 1)
  Assert (numer < fieldOrder)
  let coeff := if finalSign = -1 then fieldOrder - numer else numer
  Assert (coeff < fieldOrder)
  pure coeff

/-- The body of the second loop of `lagrangeCoeffAccumReduced`: the coefficient of `i`. -/
def lagrangeCoeff (signers : List ℕ) (fieldOrder numerFinal : ℕ) (numerSign : ℤ) (i : ℕ) :
    Except Failure ℕ := do
  let numer ← divideNumer fieldOrder numerFinal i
  let denomAccum := signers.foldl (denomRound fieldOrder i) (.one, true)
  let inv ← invertModPrime (denomAccum.1.toBNT fieldOrder) fieldOrder
  applySign fieldOrder (numer * inv % fieldOrder) (numerSign * (if denomAccum.2 then 1 else -1))

open AccumulatedBNT

/-- Writes the coefficient of each signer into `coeffs`. -/
def lagrangeCoeffAccumReduced (signers : List ℕ) (coeffs : ℕ → ℕ) (fieldOrder : ℕ) :
    Except Failure (ℕ → ℕ) := do
  let numerSign : ℤ := if signers.length % 2 = 0 then -1 else 1
  let numerFinal := (signers.foldl (times fieldOrder) .one).toBNT fieldOrder
  Assert (numerFinal < fieldOrder)
  signers.foldlM
    (fun coeffs i => do
      let coeff ← lagrangeCoeff signers fieldOrder numerFinal numerSign i
      pure (Function.update coeffs i coeff))
    coeffs

/-! ## Accumulated products -/

namespace AccumulatedBNT

variable {q : ℕ}

/-- The product that the accumulator stands for. -/
def value (q : ℕ) (a : AccumulatedBNT) : ZMod q := (a.v : ZMod q) * (a.vAcc : ZMod q)

/-- The reduced factor is a residue, and the other one is positive. -/
def Reduced (q : ℕ) (a : AccumulatedBNT) : Prop := a.v < q ∧ 1 ≤ a.vAcc

theorem reduced_one (hq : 1 < q) : one.Reduced q := ⟨hq, le_refl 1⟩

@[simp] theorem value_one : one.value q = 1 := by simp [one, value]

theorem value_times (a : AccumulatedBNT) (n : ℕ) :
    (a.times q n).value q = a.value q * (n : ZMod q) := by
  unfold times reduceIf
  split_ifs with h
  · simp [value, reduceAlways, mul_assoc]
  · simp [value, mul_assoc]

theorem Reduced.times {a : AccumulatedBNT} (h : a.Reduced q) (hq : 0 < q) {n : ℕ} (hn : 1 ≤ n) :
    (a.times q n).Reduced q := by
  unfold AccumulatedBNT.times reduceIf
  split_ifs with hle
  · exact ⟨Nat.mod_lt _ hq, le_refl 1⟩
  · exact ⟨h.1, Nat.mul_le_mul h.2 hn⟩

/-- `toBNT` is the residue of the product. -/
theorem Reduced.toBNT {a : AccumulatedBNT} (h : a.Reduced q) (hq : 0 < q) :
    a.toBNT q < q ∧ (a.toBNT q : ZMod q) = a.value q := by
  unfold AccumulatedBNT.toBNT
  split_ifs with hacc
  · refine ⟨Nat.mod_lt _ hq, ?_⟩
    simp [reduceAlways, value]
  · have hone : a.vAcc = 1 := Nat.le_antisymm (Nat.le_of_not_lt hacc) h.2
    refine ⟨h.1, ?_⟩
    simp [value, hone]

theorem foldl_times {signers : List ℕ} (hpos : ∀ j ∈ signers, 1 ≤ j) {a : AccumulatedBNT}
    (ha : a.Reduced q) (hq : 0 < q) :
    (signers.foldl (times q) a).Reduced q ∧
      (signers.foldl (times q) a).value q =
        a.value q * (signers.map fun (j : ℕ) => (j : ZMod q)).prod := by
  induction signers generalizing a with
  | nil => simpa using ha
  | cons j rest ih =>
    have hj : 1 ≤ j := hpos j (mem_cons_self ..)
    have hrest := ih (fun i hi => hpos i (mem_cons_of_mem _ hi)) (ha.times hq hj)
    refine ⟨hrest.1, ?_⟩
    rw [foldl_cons, hrest.2, value_times, map_cons, prod_cons, mul_assoc]

end AccumulatedBNT

/-! ## The coefficients -/

section Coefficients

variable {q : ℕ} [hq : Fact q.Prime]

theorem invertModPrime_eq {a : ℕ} (ha : (a : ZMod q) ≠ 0) :
    invertModPrime a q = .ok ((a : ZMod q)⁻¹).val := by
  have hone : a * ((a : ZMod q)⁻¹).val % q = 1 := by
    have hcast : ((a * ((a : ZMod q)⁻¹).val : ℕ) : ZMod q) = ((1 : ℕ) : ZMod q) := by
      rw [Nat.cast_mul, ZMod.natCast_zmod_val, mul_inv_cancel₀ ha, Nat.cast_one]
    have hmod := (ZMod.natCast_eq_natCast_iff' _ _ _).1 hcast
    rwa [Nat.mod_eq_of_lt hq.out.one_lt] at hmod
  simp [invertModPrime, Assert, require, hone]

/-- The sign of a Boolean flag. -/
def sign (q : ℕ) (positive : Bool) : ZMod q := if positive then 1 else -1

/-- The loop over the denominator: the product of the differences, with its sign apart. -/
theorem foldl_denomRound (i : ℕ) (signers : List ℕ) (acc : AccumulatedBNT × Bool)
    (hacc : acc.1.Reduced q) :
    (signers.foldl (denomRound q i) acc).1.Reduced q ∧
      (signers.foldl (denomRound q i) acc).1.value q *
          sign q (signers.foldl (denomRound q i) acc).2 =
        acc.1.value q * sign q acc.2 *
          (signers.map fun (j : ℕ) => if i = j then 1 else (i : ZMod q) - (j : ZMod q)).prod := by
  induction signers generalizing acc with
  | nil => simpa using hacc
  | cons j rest ih =>
    have hround : (denomRound q i acc j).1.Reduced q ∧
        (denomRound q i acc j).1.value q * sign q (denomRound q i acc j).2 =
          acc.1.value q * sign q acc.2 *
            (if i = j then 1 else (i : ZMod q) - (j : ZMod q)) := by
      unfold denomRound
      by_cases hij : i = j
      · rw [if_pos hij, if_pos hij, mul_one]
        exact ⟨hacc, rfl⟩
      · rw [if_neg hij, if_neg hij]
        by_cases hlt : i > j
        · rw [if_pos hlt]
          refine ⟨hacc.times hq.out.pos (by omega), ?_⟩
          rw [value_times, Nat.cast_sub (le_of_lt hlt)]
          ring
        · rw [if_neg hlt]
          refine ⟨hacc.times hq.out.pos (by omega), ?_⟩
          rw [value_times, Nat.cast_sub (Nat.le_of_not_lt hlt)]
          cases acc.2 <;> simp [sign] <;> ring
    have hrest := ih _ hround.1
    refine ⟨hrest.1, ?_⟩
    rw [foldl_cons, hrest.2, hround.2, map_cons, prod_cons, mul_assoc]

/-- Ids below the modulus are different residues, none of them zero. -/
theorem cast_injOn {signers : List ℕ} (hrange : ∀ j ∈ signers, 1 ≤ j ∧ j < q) :
    Set.InjOn (fun j : ℕ => (j : ZMod q)) signers.toFinset := by
  intro a ha b hb hab
  have ha := (hrange a (by simpa using ha)).2
  have hb := (hrange b (by simpa using hb)).2
  have hmod := (ZMod.natCast_eq_natCast_iff' _ _ _).1 hab
  rwa [Nat.mod_eq_of_lt ha, Nat.mod_eq_of_lt hb] at hmod

theorem cast_ne_zero_of_lt {j : ℕ} (h : 1 ≤ j ∧ j < q) : (j : ZMod q) ≠ 0 := by
  intro hzero
  have hdvd := (ZMod.natCast_eq_zero_iff _ _).1 hzero
  exact absurd (Nat.le_of_dvd h.1 hdvd) (not_le.2 h.2)

/-- The division is exact modulo the field order, whichever way it is made. -/
theorem divideNumer_eq (numerFinal : ℕ) {i : ℕ} (hi : (i : ZMod q) ≠ 0) :
    ∃ numer, divideNumer q numerFinal i = .ok numer ∧
      (numer : ZMod q) = (numerFinal : ZMod q) / (i : ZMod q) := by
  unfold divideNumer
  split_ifs with hdiv
  · refine ⟨numerFinal / i, rfl, ?_⟩
    rw [Nat.cast_div (Nat.dvd_of_mod_eq_zero hdiv) hi]
  · rw [invertModPrime_eq hi]
    refine ⟨_, rfl, ?_⟩
    rw [ZMod.natCast_mod, Nat.cast_mul, ZMod.natCast_zmod_val, div_eq_mul_inv]

/-- A quotient other than zero gets its sign without leaving the residues. -/
theorem applySign_eq {numer : ℕ} (hlt : numer < q) (hne : (numer : ZMod q) ≠ 0) {finalSign : ℤ}
    (hsign : finalSign = -1 ∨ finalSign = 1) :
    ∃ coeff, applySign q numer finalSign = .ok coeff ∧ coeff < q ∧
      (coeff : ZMod q) = (finalSign : ZMod q) * (numer : ZMod q) := by
  have hpos : 0 < numer := by
    rw [Nat.pos_iff_ne_zero]
    rintro rfl
    lia
  rcases hsign with rfl | rfl
  · have hsub : q - numer < q := by omega
    refine ⟨q - numer, ?_, hsub, ?_⟩
    · simp [applySign, Assert, require, hlt, hsub]
    · rw [Nat.cast_sub (le_of_lt hlt)]
      simp
  · simp [applySign, Assert, require, hlt]

/-- The products of the numerator and of the denominator over the other signers. -/
theorem prod_map_eq_erase {signers : List ℕ} (hnodup : signers.Nodup) {i : ℕ} (hi : i ∈ signers) :
    (signers.map fun (j : ℕ) => (j : ZMod q)).prod =
        (i : ZMod q) * ∏ j ∈ signers.toFinset.erase i, (j : ZMod q) ∧
      (signers.map fun (j : ℕ) => if i = j then 1 else (i : ZMod q) - (j : ZMod q)).prod =
        ∏ j ∈ signers.toFinset.erase i, ((i : ZMod q) - (j : ZMod q)) := by
  have hmem : i ∈ signers.toFinset := mem_toFinset.2 hi
  constructor
  · rw [← prod_toFinset _ hnodup, Finset.mul_prod_erase _ _ hmem]
  · rw [← prod_toFinset _ hnodup, ← Finset.mul_prod_erase _ _ hmem, if_pos rfl, one_mul]
    apply Finset.prod_congr rfl
    intro j hj
    rw [if_neg (Ne.symm (Finset.ne_of_mem_erase hj))]

/-- The weight of `i`, written as the code computes it: one sign, one numerator, one denominator. -/
theorem weight_eq {signers : List ℕ} (hnodup : signers.Nodup) {i : ℕ} (hi : i ∈ signers) :
    Interpolation.weight signers.toFinset (fun j : ℕ => (j : ZMod q)) i =
      sign q (decide (signers.length % 2 ≠ 0)) * (∏ j ∈ signers.toFinset.erase i, (j : ZMod q)) /
        ∏ j ∈ signers.toFinset.erase i, ((i : ZMod q) - (j : ZMod q)) := by
  have hcard : (signers.toFinset.erase i).card = signers.length - 1 := by
    rw [Finset.card_erase_of_mem (mem_toFinset.2 hi), toFinset_card_of_nodup hnodup]
  have hlen : 0 < signers.length := length_pos_of_mem hi
  have hsign : ((-1 : ZMod q)) ^ (signers.length - 1) =
      sign q (decide (signers.length % 2 ≠ 0)) := by
    rcases Nat.mod_two_eq_zero_or_one signers.length with hpar | hpar
    · have hodd : Odd (signers.length - 1) := by
        rw [Nat.odd_iff]
        omega
      simp [hodd.neg_one_pow, sign, hpar]
    · have heven : Even (signers.length - 1) := by
        rw [Nat.even_iff]
        omega
      simp [heven.neg_one_pow, sign, hpar]
  unfold Interpolation.weight
  rw [Finset.prod_div_distrib]
  congr 1
  calc ∏ j ∈ signers.toFinset.erase i, (0 - (j : ZMod q))
      = ∏ j ∈ signers.toFinset.erase i, (-1) * (j : ZMod q) := by simp
    _ = (-1) ^ (signers.toFinset.erase i).card * ∏ j ∈ signers.toFinset.erase i, (j : ZMod q) := by
        rw [Finset.prod_mul_distrib, Finset.prod_const]
    _ = _ := by rw [hcard, hsign]

/-- The final sign is one of the two that the assertion allows: the product of the two signs. -/
theorem finalSign_eq (even : Prop) [Decidable even] (positive : Bool) :
    ((if even then -1 else 1 : ℤ) * (if positive then 1 else -1) = -1 ∨
        (if even then -1 else 1 : ℤ) * (if positive then 1 else -1) = 1) ∧
      (((if even then -1 else 1 : ℤ) * (if positive then 1 else -1) : ℤ) : ZMod q) =
        sign q (decide (¬ even)) * sign q positive := by
  by_cases he : even <;> cases positive <;> simp [he, sign]

/-- **One coefficient.** For a signer among distinct ids below the modulus the code returns the weight
    of the signer at zero, and no assertion fails. -/
theorem lagrangeCoeff_eq {signers : List ℕ} (hnodup : signers.Nodup)
    (hrange : ∀ j ∈ signers, 1 ≤ j ∧ j < q) {i : ℕ} (hi : i ∈ signers) {numerFinal : ℕ}
    (hnumer : (numerFinal : ZMod q) = (signers.map fun (j : ℕ) => (j : ZMod q)).prod) :
    ∃ coeff, lagrangeCoeff signers q numerFinal (if signers.length % 2 = 0 then -1 else 1) i =
        .ok coeff ∧ coeff < q ∧
      (coeff : ZMod q) = Interpolation.weight signers.toFinset (fun j : ℕ => (j : ZMod q)) i := by
  have hi0 : (i : ZMod q) ≠ 0 := cast_ne_zero_of_lt (hrange i hi)
  obtain ⟨hprodNumer, hprodDenom⟩ := prod_map_eq_erase (q := q) hnodup hi
  obtain ⟨numer, hnumerEq, hnumerVal⟩ := divideNumer_eq numerFinal hi0
  obtain ⟨hdred, hdval⟩ := foldl_denomRound i signers (.one, true)
    (reduced_one hq.out.one_lt)
  unfold lagrangeCoeff
  rw [hnumerEq, weight_eq hnodup hi]
  generalize signers.foldl (denomRound q i) (.one, true) = denomAccum at hdred hdval ⊢
  dsimp only
  have hdcast := (hdred.toBNT hq.out.pos).2
  generalize denomAccum.1.toBNT q = denom at hdcast ⊢
  -- the two products over the other signers, and that neither vanishes
  generalize hN : ∏ j ∈ signers.toFinset.erase i, (j : ZMod q) = N at hprodNumer ⊢
  generalize hD : ∏ j ∈ signers.toFinset.erase i, ((i : ZMod q) - (j : ZMod q)) = D at hprodDenom ⊢
  have hN0 : N ≠ 0 := by
    rw [← hN, Finset.prod_ne_zero_iff]
    intro j hj
    exact cast_ne_zero_of_lt (hrange j (by simpa using Finset.mem_of_mem_erase hj))
  have hD0 : D ≠ 0 := by
    rw [← hD, Finset.prod_ne_zero_iff]
    intro j hj
    have hjmem : j ∈ signers.toFinset := Finset.mem_of_mem_erase hj
    rw [sub_ne_zero]
    intro heq
    exact Finset.ne_of_mem_erase hj
      (cast_injOn hrange (by simpa using hi) (by simpa using hjmem) heq).symm
  have hdenom : (denom : ZMod q) * sign q denomAccum.2 = D := by
    rw [hdcast, hdval, hprodDenom]
    simp [sign]
  have hdenom0 : (denom : ZMod q) ≠ 0 := left_ne_zero_of_mul (hdenom ▸ hD0)
  have hnumerN : (numer : ZMod q) = N := by
    rw [hnumerVal, hnumer, hprodNumer, mul_div_cancel_left₀ _ hi0]
  rw [invertModPrime_eq hdenom0]
  -- the quotient of the two unsigned products
  have hquot : ((numer * ((denom : ZMod q)⁻¹).val % q : ℕ) : ZMod q) =
      N * (denom : ZMod q)⁻¹ := by
    rw [ZMod.natCast_mod, Nat.cast_mul, ZMod.natCast_zmod_val, hnumerN]
  have hquot0 : ((numer * ((denom : ZMod q)⁻¹).val % q : ℕ) : ZMod q) ≠ 0 := by
    rw [hquot]
    exact mul_ne_zero hN0 (inv_ne_zero hdenom0)
  obtain ⟨hsign, hsignCast⟩ := finalSign_eq (q := q) (signers.length % 2 = 0) denomAccum.2
  obtain ⟨coeff, hcoeff, hlt, hcast⟩ :=
    applySign_eq (Nat.mod_lt _ hq.out.pos) hquot0 hsign
  refine ⟨coeff, hcoeff, hlt, ?_⟩
  have hinv : (sign q denomAccum.2)⁻¹ = sign q denomAccum.2 := by
    cases denomAccum.2 <;> simp [sign]
  rw [hcast, hsignCast, hquot, ← hdenom, div_eq_mul_inv, mul_inv, hinv]
  ring

/-- **All coefficients.** -/
theorem lagrangeCoeffAccumReduced_eq {signers : List ℕ} (hnodup : signers.Nodup)
    (hrange : ∀ j ∈ signers, 1 ≤ j ∧ j < q) (coeffs : ℕ → ℕ) :
    ∃ coeffs', lagrangeCoeffAccumReduced signers coeffs q = .ok coeffs' ∧
      ∀ i ∈ signers, coeffs' i < q ∧
        (coeffs' i : ZMod q) =
          Interpolation.weight signers.toFinset (fun j : ℕ => (j : ZMod q)) i := by
  obtain ⟨hred, hval⟩ := foldl_times (fun j hj => (hrange j hj).1)
    (reduced_one hq.out.one_lt) hq.out.pos
  obtain ⟨hlt, hcast⟩ := hred.toBNT hq.out.pos
  rw [hval, value_one, one_mul] at hcast
  apply Meets.returns
  unfold lagrangeCoeffAccumReduced
  apply meets_ok_bind (require_of hlt)
  -- the coefficients of the ids that the loop has passed are in place
  apply meets_foldlM (fun done (c : ℕ → ℕ) => ∀ i ∈ done, c i < q ∧
    (c i : ZMod q) = Interpolation.weight signers.toFinset (fun j : ℕ => (j : ZMod q)) i)
  · simp
  · intro done i rest c hsplit hdone
    have hi : i ∈ signers := by simp [hsplit]
    obtain ⟨coeff, hcoeff, hcoeffLt, hcoeffVal⟩ := lagrangeCoeff_eq hnodup hrange hi hcast
    apply meets_ok_bind hcoeff
    apply meets_pure
    intro j hj
    rcases mem_append.1 hj with hj | hj
    · by_cases hji : j = i
      · subst hji
        simpa using ⟨hcoeffLt, hcoeffVal⟩
      · simpa [hji] using hdone j hj
    · rw [mem_singleton.1 hj]
      simpa using ⟨hcoeffLt, hcoeffVal⟩

end Coefficients

end ConcordBft.Threshsign
