import ConcordBft.Threshsign.FastMultExp
import ConcordBft.Threshsign.LagrangeInterpolation

set_option autoImplicit false

/-! # BLS threshold signatures (`BlsThresholdKeygen`, `BlsThresholdAccumulator`, `BlsThresholdVerifier`)

The dealer shares the secret key with a polynomial of degree `reqSigners - 1`; a signature share is the
message point times the key share; the accumulator combines `reqSigners` shares with the Lagrange
coefficients of their signers. The groups are written additively, as RELIC does, and the pairing is
any map that is additive in both arguments. -/

namespace ConcordBft.Threshsign

open Interpolation List

/-- `SecretSharingPolynomial`: `coefs[0]` is the constant coefficient. -/
structure SecretSharingPolynomial where
  coefs : List ℕ
  modBase : ℕ

namespace SecretSharingPolynomial

/-- The constructor and `generate`: `randomCoefs` are the coefficients drawn by `randomCoeff`. -/
def generate (secret : ℕ) (randomCoefs : List ℕ) (modBase : ℕ) : SecretSharingPolynomial :=
  { coefs := secret % modBase :: randomCoefs, modBase := modBase }

/-- `degree` -/
def degree (p : SecretSharingPolynomial) : ℕ := p.coefs.length - 1

/-- The loop starts at the highest coefficient. -/
def get (p : SecretSharingPolynomial) (x : ℕ) : ℕ :=
  p.coefs.foldr (fun coef res => (res * x + coef) % p.modBase) 0

end SecretSharingPolynomial

section Scheme

variable {G1 G2 GT : Type} [AddCommGroup G1] [AddCommGroup G2] [AddCommGroup GT]

/-- The keys of `BlsThresholdKeygen`. -/
structure BlsThresholdKeygen (G2 : Type) where
  sk : ℕ
  pk : G2
  skShares : ℕ → ℕ
  pkShares : ℕ → G2

open SecretSharingPolynomial

/-- `sk` is the key that `cp_bls_gen` drew, `gen2` the generator of the second group. -/
def BlsThresholdKeygen.create (gen2 : G2) (groupOrder sk : ℕ) (randomCoefs : List ℕ) :
    BlsThresholdKeygen G2 :=
  let poly := generate sk randomCoefs groupOrder
  { sk := sk
    pk := sk • gen2
    skShares := poly.get
    pkShares := fun i => poly.get i • gen2 }

/-- `computeLagrangeCoeff` and `exponentiateLagrangeCoeff` of `BlsThresholdAccumulator`: the threshold
    signature of the valid shares. -/
def thresholdSignature (groupOrder : ℕ) (validSharesBits : List ℕ) (validShares : ℕ → G1)
    (coeffs : ℕ → ℕ) : Except Failure G1 := do
  let coeffs ← lagrangeCoeffAccumReduced validSharesBits coeffs groupOrder
  fastMultExp validSharesBits validShares coeffs (groupOrder - 1).size

/-- `BlsThresholdVerifier::verify` on points. -/
def verifyPoint [DecidableEq GT] (pairing : G1 →+ G2 →+ GT) (gen2 : G2) (msgHash sigShare : G1)
    (pk : G2) : Bool :=
  decide (pairing msgHash pk = pairing sigShare gen2)

/-! ## Reconstruction -/

section Reconstruction

variable {q : ℕ} [hq : Fact q.Prime] {signers : List ℕ}

/-- A share is the value of the polynomial at the id of the signer. -/
theorem SecretSharingPolynomial.cast_get (coefs : List ℕ) (x : ℕ) :
    (({ coefs := coefs, modBase := q } : SecretSharingPolynomial).get x : ZMod q) =
      (ofCoeffs (coefs.map fun (c : ℕ) => (c : ZMod q))).eval (x : ZMod q) := by
  rw [eval_ofCoeffs]
  unfold get
  induction coefs with
  | nil => simp
  | cons c rest ih =>
    rw [foldr_cons, ZMod.natCast_mod, Nat.cast_add, Nat.cast_mul, ih, map_cons, foldr_cons]

/-- The multiple of a point depends only on the residue of the factor. -/
theorem nsmul_eq_of_cast_eq {G : Type} [AddCommGroup G] {x : G} (hx : q • x = 0) {m n : ℕ}
    (h : (m : ZMod q) = (n : ZMod q)) : m • x = n • x := by
  rw [nsmul_eq_nsmul_iff_modEq]
  exact ((ZMod.natCast_eq_natCast_iff _ _ _).1 h).of_dvd (addOrderOf_dvd_of_nsmul_eq_zero hx)

section

variable (hnodup : signers.Nodup) (hrange : ∀ i ∈ signers, 1 ≤ i ∧ i < q)
include hnodup hrange

/-- The coefficients of the signers bring the key shares together to the secret key. -/
theorem sum_weight_mul_share (sk : ℕ) {randomCoefs : List ℕ}
    (hlen : randomCoefs.length + 1 = signers.length) : (signers.map fun (i : ℕ) =>
        weight signers.toFinset (fun j : ℕ => (j : ZMod q)) i *
          ((generate sk randomCoefs q).get i : ZMod q)).sum =
      (sk : ZMod q) := by
  have hdeg : (ofCoeffs
      ((sk % q :: randomCoefs).map fun (c : ℕ) => (c : ZMod q))).degree <
        signers.toFinset.card := by
    have hlt := degree_ofCoeffs_lt
      ((sk % q :: randomCoefs).map fun (c : ℕ) => (c : ZMod q))
    rwa [length_map, length_cons, hlen, ← toFinset_card_of_nodup hnodup] at hlt
  have hzero := eval_zero_eq_sum (cast_injOn hrange) hdeg
  rw [eval_ofCoeffs, map_cons, foldr_cons, mul_zero, zero_add, ZMod.natCast_mod] at hzero
  rw [hzero, sum_toFinset _ hnodup]
  congr 1
  apply map_congr_left
  intro i _
  rw [generate, cast_get, map_cons, ZMod.natCast_mod]

/-- **Combining shares.** Shares of the signers, with as many signers as the polynomial has
    coefficients, combine to the signature under the secret key, and no assertion fails. -/
theorem thresholdSignature_eq (sk : ℕ) {randomCoefs : List ℕ}
    (hlen : randomCoefs.length + 1 = signers.length) {h : G1} (hh : q • h = 0)
    {validShares : ℕ → G1}
    (hshares : ∀ i ∈ signers, validShares i = (generate sk randomCoefs q).get i • h)
    (coeffs : ℕ → ℕ) : thresholdSignature q signers validShares coeffs = .ok (sk • h) := by
  obtain ⟨coeffs', hcoeffs, hval⟩ := lagrangeCoeffAccumReduced_eq hnodup hrange coeffs
  have hbits : ∀ i ∈ signers, (coeffs' i).size ≤ (q - 1).size := fun i hi =>
    Nat.size_le_size (Nat.le_pred_of_lt (hval i hi).1)
  have hsum : (signers.map fun i => coeffs' i • validShares i).sum =
      (signers.map fun i =>
        coeffs' i * (generate sk randomCoefs q).get i).sum • h := by
    rw [sum_smul, map_map]
    congr 1
    apply map_congr_left
    intro i hi
    rw [Function.comp_apply, mul_nsmul', hshares i hi]
  have hcast : (((signers.map fun i =>
      coeffs' i * (generate sk randomCoefs q).get i).sum : ℕ) : ZMod q) =
        (sk : ZMod q) := by
    rw [← sum_weight_mul_share hnodup hrange sk hlen, Nat.cast_list_sum, map_map]
    congr 1
    apply map_congr_left
    intro i hi
    simp [(hval i hi).2]
  unfold thresholdSignature
  rw [hcoeffs, Checked.ok_bind, fastMultExp_eq hbits, hsum, nsmul_eq_of_cast_eq hh hcast]

end

end Reconstruction

/-- A signature under a key verifies under the public key. -/
theorem verifyPoint_nsmul [DecidableEq GT] (pairing : G1 →+ G2 →+ GT) (gen2 : G2) (h : G1) (sk : ℕ) :
    verifyPoint pairing gen2 h (sk • h) (sk • gen2) = true := by
  simp [verifyPoint]

/-- With a pairing that separates points, nothing else verifies. -/
theorem verifyPoint_nsmul_iff [DecidableEq GT] {pairing : G1 →+ G2 →+ GT} {gen2 : G2}
    (hsep : ∀ x : G1, pairing x gen2 = 0 → x = 0) {h sig : G1} {sk : ℕ} :
    verifyPoint pairing gen2 h sig (sk • gen2) = true ↔ sig = sk • h := by
  constructor
  · intro hver
    have hpair : pairing (sk • h) gen2 = pairing sig gen2 := by
      simpa [verifyPoint] using hver
    have hzero := hsep (sig - sk • h) (by rw [map_sub, AddMonoidHom.sub_apply, hpair, sub_self])
    exact sub_eq_zero.1 hzero
  · rintro rfl
    exact verifyPoint_nsmul pairing gen2 h sk

/-- **Threshold signatures combine correctly from every subset.** Whatever `k` signers contribute,
    visited in increasing order, the threshold signature of their shares is the signature under the
    secret key, and it verifies under the public key. -/
theorem thresholdSignature_of_any_signers [DecidableEq GT] (pairing : G1 →+ G2 →+ GT) (gen2 : G2)
    {q n k : ℕ} (hq : q.Prime) (hn : n < q) (hk : 1 ≤ k ∧ k ≤ n) (hG1 : ∀ x : G1, q • x = 0) (sk : ℕ)
    {randomCoefs : List ℕ}
    (hdegree : (generate sk randomCoefs q).degree = k - 1) (h : G1)
    {signers : List ℕ} (hincreasing : signers.Pairwise (· < ·))
    (hrange : ∀ i ∈ signers, 1 ≤ i ∧ i ≤ n) (hlen : signers.length = k) (coeffs : ℕ → ℕ) :
    let keys := BlsThresholdKeygen.create gen2 q sk randomCoefs
    thresholdSignature q signers (fun i => keys.skShares i • h) coeffs = .ok (keys.sk • h) ∧
      verifyPoint pairing gen2 h (keys.sk • h) keys.pk = true := by
  have : Fact q.Prime := ⟨hq⟩
  have hcoefs : randomCoefs.length + 1 = signers.length := by
    simp only [degree, generate, List.length_cons] at hdegree
    omega
  have hbelow : ∀ i ∈ signers, 1 ≤ i ∧ i < q := by
    intro i hi
    obtain ⟨hpos, hle⟩ := hrange i hi
    omega
  constructor
  · exact thresholdSignature_eq (hincreasing.imp Nat.ne_of_lt) hbelow sk hcoefs (hG1 h)
      (fun i _ => rfl) coeffs
  · exact verifyPoint_nsmul pairing gen2 h sk

/-- Two of three signers over the field with five elements: `P = 3 + 2 x`, signers 1 and 3. -/
theorem thresholdSignature_of_signers_one_three :
    Nat.Prime 5 ∧ (∀ x : ZMod 5, 5 • x = 0) ∧
      thresholdSignature 5 [1, 3] (fun i =>
        (BlsThresholdKeygen.create (1 : ZMod 5) 5 3 [2]).skShares i • (1 : ZMod 5)) (fun _ => 0) =
        .ok (3 • (1 : ZMod 5)) :=
  ⟨by decide, by decide,
    (thresholdSignature_of_any_signers (AddMonoidHom.mul : ZMod 5 →+ ZMod 5 →+ ZMod 5) (1 : ZMod 5)
      (by decide : Nat.Prime 5) (by decide : 3 < 5) (by decide : 1 ≤ 2 ∧ 2 ≤ 3) (by decide) 3
      (by decide) (1 : ZMod 5) (by decide : [1, 3].Pairwise (· < ·)) (by decide) (by decide)
      (fun _ => 0)).1⟩

end Scheme

end ConcordBft.Threshsign
