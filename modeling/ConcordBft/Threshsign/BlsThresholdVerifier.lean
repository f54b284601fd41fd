import ConcordBft.Threshsign.BlsMultisig

set_option autoImplicit false

/-! # Accumulators of the threshold scheme (`BlsThresholdVerifier`)

The accumulator of `BlsThresholdVerifier` depends on the threshold: if all signers but one are
required, it is a `BlsAlmostMultisigAccumulator`, which takes its Lagrange coefficients from a table
and never verifies a share. `M` is the type of the messages. -/

namespace ConcordBft.Threshsign

/-- A verifier, with the keys of the signers. -/
structure BlsThresholdVerifier (M G1 G2 GT : Type) [AddCommGroup G1] [AddCommGroup G2]
    [AddCommGroup GT] where
  pairing : G1 →+ G2 →+ GT
  generator2 : G2
  groupOrder : ℕ
  /-- `g1_map` -/
  mapToPoint : M → G1
  codec : PointCodec G1
  reqSigners : ℕ
  numSigners : ℕ
  publicKey : G2
  /-- Indexed by the ids; the element 0 is not used. -/
  publicKeysVector : ℕ → G2

namespace VectorOfShares

/-- `findFirstGap` -/
def findFirstGap (v : VectorOfShares) : ℕ :=
  match (List.range maxNumOfShares).find? (fun i => decide (i ∉ v.data)) with
  | some i => i + 1
  | none => maxNumOfShares + 1

end VectorOfShares

namespace BlsThresholdVerifier

variable {M G1 G2 GT : Type} [AddCommGroup G1] [AddCommGroup G2] [AddCommGroup GT] [DecidableEq GT]
  (v : BlsThresholdVerifier M G1 G2 GT)

/-- Is the accumulator a `BlsAlmostMultisigAccumulator`? -/
def isAlmostMultisig : Bool := decide ((v.reqSigners : ℤ) = (v.numSigners : ℤ) - 1)

/-- `newAccumulator`: the constructor of `BlsAlmostMultisigAccumulator` switches the verification of
    shares off. -/
def newAccumulator (withShareVerification : Bool) : ThresholdAccumulator M G1 :=
  if v.isAlmostMultisig then .create (v.numSigners - 1) v.numSigners false 0
  else .create v.reqSigners v.numSigners withShareVerification 0

/-- `verifyShare` of the accumulators; the id is in range. -/
def verifyShare (digest : M) (id : ℕ) (sigShare : G1) : Bool :=
  verifyPoint v.pairing v.generator2 (v.mapToPoint digest) sigShare (v.publicKeysVector id)

/-- `computeLagrangeCoeff`: the almost-multisig accumulator looks up the coefficients of all signers
    but the first one that is missing. -/
def computeLagrangeCoeff (acc : ThresholdAccumulator M G1) : Except Failure (ℕ → ℕ) :=
  if v.isAlmostMultisig then do
    let missingSigner := acc.validSharesBits.findFirstGap
    Assert (1 ≤ missingSigner ∧ missingSigner ≤ acc.totalSigners)
    lagrangeCoeffAccumReduced
      ((List.range' 1 v.numSigners).filter fun id => decide (id ≠ missingSigner)) (fun _ => 0)
      v.groupOrder
  else lagrangeCoeffAccumReduced acc.validSharesBits.ids (fun _ => 0) v.groupOrder

/-- `getFullSignedData` -/
def getFullSignedData (acc : ThresholdAccumulator M G1) : Except Failure Bytes := do
  let coeffs ← v.computeLagrangeCoeff acc
  let threshSig ← fastMultExp acc.validSharesBits.ids acc.validShares coeffs
    (v.groupOrder - 1).size
  pure (v.codec.toBytes threshSig)

def verify (msg : M) (sigBuf : Bytes) : Bool :=
  verifyPoint v.pairing v.generator2 (v.mapToPoint msg) (v.codec.fromBytes sigBuf) v.publicKey

/-- `BlsSigshareParser`: four bytes with the id of the signer, the highest first, and the point. -/
def parseShare (sigShare : Bytes) : ℕ × G1 :=
  ((sigShare.take 4).foldl (fun n byte => n * 256 + byte.toNat) 0, v.codec.fromBytes (sigShare.drop 4))

/-! ## Keys that were dealt -/

/-- The keys come from a polynomial of the right degree, the groups have a prime order above the
    number of signers, and the pairing separates points. -/
structure Dealt (v : BlsThresholdVerifier M G1 G2 GT) (sk : ℕ) (randomCoefs : List ℕ) : Prop where
  prime : v.groupOrder.Prime
  signers_lt : v.numSigners < v.groupOrder
  order : ∀ x : G1, v.groupOrder • x = 0
  threshold : randomCoefs.length + 1 = v.reqSigners
  publicKey_eq : v.publicKey = sk • v.generator2
  publicKeys_eq : ∀ id, 1 ≤ id → id ≤ v.numSigners → v.publicKeysVector id =
    (SecretSharingPolynomial.generate sk randomCoefs v.groupOrder).get id • v.generator2
  separates : ∀ x : G1, v.pairing x v.generator2 = 0 → x = 0

variable {v : BlsThresholdVerifier M G1 G2 GT} {sk : ℕ} {randomCoefs : List ℕ}

omit [DecidableEq GT] in
theorem reqSigners_of_isAlmostMultisig (halmost : v.isAlmostMultisig = true) :
    v.reqSigners + 1 = v.numSigners := by
  have heq : (v.reqSigners : ℤ) = (v.numSigners : ℤ) - 1 := of_decide_eq_true halmost
  omega

omit [DecidableEq GT] in
/-- Both accumulators count up to the required number; only one of them can verify shares. -/
theorem newAccumulator_eq (withShareVerification : Bool) :
    v.newAccumulator withShareVerification =
      .create v.reqSigners v.numSigners (withShareVerification && !v.isAlmostMultisig) 0 := by
  cases halmost : v.isAlmostMultisig with
  | false => simp [newAccumulator, halmost]
  | true => simp [newAccumulator, halmost, ← reqSigners_of_isAlmostMultisig halmost]

/-! ## Combining -/

section

variable {acc : ThresholdAccumulator M G1} {shares : List (ℕ × G1)}
  (hacc : ThresholdAccumulator.Holds acc.validSharesBits acc.validShares shares)
  (hdist : ThresholdAccumulator.Distinct v.numSigners shares)
include hacc hdist

omit [DecidableEq GT] in
theorem range_of_mem_ids {id : ℕ} (hid : id ∈ acc.validSharesBits.ids) :
    1 ≤ id ∧ id ≤ v.numSigners := by
  obtain ⟨p, hp, rfl, -⟩ := hacc.of_mem_ids hid
  exact hdist.range p hp

omit [DecidableEq GT] in
/-- If a signer is missing, the first gap is the id of one. -/
theorem findFirstGap_spec (hmax : v.numSigners ≤ maxNumOfShares)
    (hless : shares.length < v.numSigners) :
    (1 ≤ acc.validSharesBits.findFirstGap ∧ acc.validSharesBits.findFirstGap ≤ v.numSigners) ∧
      acc.validSharesBits.findFirstGap ∉ acc.validSharesBits.ids := by
  obtain ⟨j, hj, hgap⟩ : ∃ j < v.numSigners, j ∉ acc.validSharesBits.data := by
    by_contra hall
    push Not at hall
    have hsub : Finset.range v.numSigners ⊆ acc.validSharesBits.data := fun j hj =>
      hall j (Finset.mem_range.1 hj)
    have hcard := Finset.card_le_card hsub
    have hcount : acc.validSharesBits.size = shares.length := hacc.count_of_distinct hdist
    rw [Finset.card_range, ← acc.validSharesBits.size_eq] at hcard
    omega
  unfold VectorOfShares.findFirstGap
  cases hfind : (List.range maxNumOfShares).find? fun i =>
      decide (i ∉ acc.validSharesBits.data) with
  | none =>
    rw [List.find?_eq_none] at hfind
    exact absurd (hfind j (List.mem_range.2 (lt_of_lt_of_le hj hmax))) (by simpa using hgap)
  | some i =>
    obtain ⟨hi, -, hfirst⟩ := List.find?_range_eq_some.1 hfind
    have hle : i ≤ j := by
      by_contra hlt
      have hbefore := hfirst j (not_le.1 hlt)
      simp [hgap] at hbefore
    refine ⟨⟨Nat.le_add_left 1 i, by dsimp only; omega⟩, ?_⟩
    rw [VectorOfShares.mem_ids]
    simpa using hi

omit [DecidableEq GT] in
/-- The coefficients are those of a list of signers to which all ids belong, and of the ids
    themselves if there are enough. -/
theorem computeLagrangeCoeff_spec (hmax : v.numSigners ≤ maxNumOfShares)
    (htotal : acc.totalSigners = v.numSigners)
    (hlen : shares.length ≤ v.reqSigners) :
    ∃ signers, v.computeLagrangeCoeff acc =
        lagrangeCoeffAccumReduced signers (fun _ => 0) v.groupOrder ∧
      signers.Nodup ∧ (∀ id ∈ signers, 1 ≤ id ∧ id ≤ v.numSigners) ∧
      (∀ id ∈ acc.validSharesBits.ids, id ∈ signers) ∧
      (shares.length = v.reqSigners → acc.validSharesBits.ids = signers) := by
  have hnodup : acc.validSharesBits.ids.Nodup := acc.validSharesBits.sortedLT_ids.imp ne_of_lt
  unfold computeLagrangeCoeff
  cases halmost : v.isAlmostMultisig with
  | false =>
    exact ⟨_, rfl, hnodup, fun id hid => range_of_mem_ids hacc hdist hid, fun id hid => hid,
      fun _ => rfl⟩
  | true =>
    have hreq := reqSigners_of_isAlmostMultisig halmost
    obtain ⟨hgap, hmissing⟩ := findFirstGap_spec hacc hdist hmax (by omega)
    rw [if_pos rfl]
    dsimp only
    rw [Assert, Checked.require_of (htotal ▸ hgap)]
    have hsorted : ((List.range' 1 v.numSigners).filter fun id =>
        decide (id ≠ acc.validSharesBits.findFirstGap)).Pairwise (· < ·) :=
      (@List.pairwise_lt_range' 1 v.numSigners 1 (by decide)).filter _
    have hmem : ∀ id, id ∈ (List.range' 1 v.numSigners).filter (fun id =>
        decide (id ≠ acc.validSharesBits.findFirstGap)) ↔
          (1 ≤ id ∧ id ≤ v.numSigners) ∧ id ≠ acc.validSharesBits.findFirstGap := by
      intro id
      rw [List.mem_filter, List.mem_range'_1, decide_eq_true_eq]
      constructor
      · rintro ⟨hid, hne⟩
        exact ⟨by omega, hne⟩
      · rintro ⟨hid, hne⟩
        exact ⟨by omega, hne⟩
    have hsub : ∀ id ∈ acc.validSharesBits.ids, id ∈ (List.range' 1 v.numSigners).filter
        (fun id => decide (id ≠ acc.validSharesBits.findFirstGap)) := by
      intro id hid
      rw [hmem]
      exact ⟨range_of_mem_ids hacc hdist hid, fun heq => hmissing (heq ▸ hid)⟩
    refine ⟨_, rfl, hsorted.imp ne_of_lt, fun id hid => ((hmem id).1 hid).1, hsub, ?_⟩
    -- all signers but one are there, so no other one is missing
    intro hfull
    have hshort : ((List.range' 1 v.numSigners).filter fun id =>
        decide (id ≠ acc.validSharesBits.findFirstGap)).length ≤ acc.validSharesBits.ids.length := by
      have hlt : ((List.range' 1 v.numSigners).filter fun id =>
          decide (id ≠ acc.validSharesBits.findFirstGap)).length <
            (List.range' 1 v.numSigners).length := by
        rw [List.length_filter_lt_length_iff_exists]
        exact ⟨_, List.mem_range'_1.2 ⟨hgap.1, by omega⟩, by simp⟩
      rw [List.length_range'] at hlt
      rw [VectorOfShares.length_ids, hacc.count_of_distinct hdist]
      omega
    apply List.Perm.eq_of_pairwise' acc.validSharesBits.sortedLT_ids hsorted
    exact (hnodup.subperm hsub).perm_of_length_le hshort

/-- **Combining.** Shares of different signers are combined without a failed assertion; if there are
    enough and each of them verifies, so does the result. -/
theorem Dealt.getFullSignedData_spec (h : v.Dealt sk randomCoefs)
    (hmax : v.numSigners ≤ maxNumOfShares)
    (htotal : acc.totalSigners = v.numSigners) (hlen : shares.length ≤ v.reqSigners) (digest : M) :
    ∃ sig, v.getFullSignedData acc = .ok sig ∧
      (shares.length = v.reqSigners → (∀ p ∈ shares, v.verifyShare digest p.1 p.2 = true) →
        v.verify digest sig = true) := by
  have : Fact v.groupOrder.Prime := ⟨h.prime⟩
  obtain ⟨signers, hsigners, hnodup, hrange, hsub, hall⟩ :=
    computeLagrangeCoeff_spec hacc hdist hmax htotal hlen
  have hbelow : ∀ id ∈ signers, 1 ≤ id ∧ id < v.groupOrder := by
    intro id hid
    obtain ⟨hlo, hhi⟩ := hrange id hid
    exact ⟨hlo, lt_of_le_of_lt hhi h.signers_lt⟩
  obtain ⟨coeffs, hcoeffs, hval⟩ := lagrangeCoeffAccumReduced_eq hnodup hbelow fun _ => 0
  have hbits : ∀ id ∈ acc.validSharesBits.ids, (coeffs id).size ≤ (v.groupOrder - 1).size :=
    fun id hid => Nat.size_le_size (Nat.le_pred_of_lt (hval id (hsub id hid)).1)
  refine ⟨v.codec.toBytes (acc.validSharesBits.ids.map fun id => coeffs id • acc.validShares id).sum,
    by rw [getFullSignedData, hsigners, hcoeffs, Checked.ok_bind, fastMultExp_eq hbits]; rfl, ?_⟩
  intro hfull hvalid
  obtain rfl := hall hfull
  have hcoefs : randomCoefs.length + 1 = acc.validSharesBits.ids.length := by
    rw [VectorOfShares.length_ids, hacc.count_of_distinct hdist, hfull, h.threshold]
  have hshares : ∀ id ∈ acc.validSharesBits.ids, acc.validShares id =
      (SecretSharingPolynomial.generate sk randomCoefs v.groupOrder).get id •
        v.mapToPoint digest := by
    intro id hid
    obtain ⟨p, hp, rfl, hshare⟩ := hacc.of_mem_ids hid
    rw [hshare]
    -- a share verifies exactly if it is the one that the key of its signer makes
    have hverified := hvalid p hp
    obtain ⟨hlo, hhi⟩ := hdist.range p hp
    rwa [verifyShare, h.publicKeys_eq p.1 hlo hhi, verifyPoint_nsmul_iff h.separates] at hverified
  have hsum := thresholdSignature_eq hnodup hbelow sk hcoefs (h.order _) hshares fun _ => 0
  rw [thresholdSignature, hcoeffs, Checked.ok_bind, fastMultExp_eq hbits] at hsum
  rw [verify, v.codec.fromBytes_toBytes, Except.ok.inj hsum, h.publicKey_eq]
  exact verifyPoint_nsmul _ _ _ _

end

end BlsThresholdVerifier

end ConcordBft.Threshsign
