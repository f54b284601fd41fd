import ConcordBft.Threshsign.BlsThreshold
import ConcordBft.Threshsign.ThresholdAccumulator

set_option autoImplicit false

/-! # BLS multisignatures (`BlsMultisigAccumulator`, `BlsMultisigVerifier`)

A multisignature is the sum of the shares of `reqSigners` signers, followed by the vector of their
ids unless all signers are required. The verifier adds up the public keys of the ids that the
signature names. -/

namespace ConcordBft.Threshsign

open VectorOfShares List

/-- The serialisation of points: every point has bytes of the same length, and is read back. The library
    writes the neutral element in one byte; that the sum of some shares is neutral is left out. -/
structure PointCodec (G : Type) where
  signatureSize : ℕ
  toBytes : G → Bytes
  fromBytes : Bytes → G
  length_toBytes : ∀ x, (toBytes x).length = signatureSize
  fromBytes_toBytes : ∀ x, fromBytes (toBytes x) = x

section Multisig

variable {G1 G2 GT : Type} [AddCommGroup G1] [AddCommGroup G2] [AddCommGroup GT] [DecidableEq GT]

/-- `publicKeysVector` is indexed by the ids; its element 0 is not used. -/
structure BlsMultisigVerifier (G1 G2 GT : Type) [AddCommGroup G1] [AddCommGroup G2]
    [AddCommGroup GT] where
  pairing : G1 →+ G2 →+ GT
  generator2 : G2
  /-- `g1_map` -/
  mapToPoint : Bytes → G1
  codec : PointCodec G1
  reqSigners : ℕ
  numSigners : ℕ
  publicKeysVector : List G2
  length_publicKeysVector : publicKeysVector.length = numSigners + 1

/-- How verification can end other than with an answer. -/
inductive VerifyFailure where
  /-- `runtime_error("Signature does not have the right size")` -/
  | wrongSize
  /-- An assertion. -/
  | assertion
  /-- An access to `publicKeysVector` behind its end. -/
  | keyOutOfRange (id : ℕ)
deriving DecidableEq, Repr

namespace BlsMultisigVerifier

variable (v : BlsMultisigVerifier G1 G2 GT)

def requiredLengthForSignedData : ℕ :=
  v.codec.signatureSize +
    if v.reqSigners ≠ v.numSigners then getByteCount else 0

/-- One round of the loop that derives the public key from the signer ids. -/
def addPublicKey (publicKey : G2) (id : ℕ) : Except VerifyFailure G2 :=
  match v.publicKeysVector[id]? with
  | some key => .ok (publicKey + key)
  | none => .error (.keyOutOfRange id)

/-- `verify`. If all signers are required, the key is the one of the constructor: the sum of the
    verification keys. -/
def verify (msg sigBuf : Bytes) : Except VerifyFailure Bool := do
  let publicKey ←
    if v.reqSigners ≠ v.numSigners then do
      Checked.require VerifyFailure.wrongSize (sigBuf.length = v.requiredLengthForSignedData)
      let signers ← (fromBytes (sigBuf.drop v.codec.signatureSize)).mapError
        fun _ => VerifyFailure.assertion
      signers.ids.foldlM v.addPublicKey 0
    else pure v.publicKeysVector.sum
  pure (verifyPoint v.pairing v.generator2 (v.mapToPoint msg)
    (v.codec.fromBytes (sigBuf.take v.codec.signatureSize)) publicKey)

/-- `verifyShare` of the accumulator, which has the keys of the verifier; the id is in range. -/
def verifyShare (digest : Bytes) (id : ℕ) (sigShare : G1) : Bool :=
  verifyPoint v.pairing v.generator2 (v.mapToPoint digest) sigShare (v.publicKeysVector.getD id 0)

/-- `newAccumulator` -/
def newAccumulator (withShareVerification : Bool) : ThresholdAccumulator Bytes G1 :=
  .create v.reqSigners v.numSigners withShareVerification 0

end BlsMultisigVerifier

/-- `aggregateShares` of `BlsMultisigAccumulator` -/
def aggregateShares (acc : ThresholdAccumulator Bytes G1) : Except Failure G1 := do
  Assert (acc.validSharesBits.count = acc.reqSigners)
  pure (acc.validSharesBits.ids.foldl (fun threshSig id => threshSig + acc.validShares id) 0)

/-- `sigToBytes` of `BlsMultisigAccumulator` into a buffer of the required length. -/
def sigToBytes (codec : PointCodec G1) (acc : ThresholdAccumulator Bytes G1) (threshSig : G1) :
    Bytes :=
  codec.toBytes threshSig ++
    if acc.reqSigners ≠ acc.totalSigners then acc.validSharesBits.toBytes else []

/-- `getFullSignedData` of `BlsMultisigAccumulator` -/
def getFullSignedData (codec : PointCodec G1) (acc : ThresholdAccumulator Bytes G1) :
    Except Failure Bytes := do
  let threshSig ← aggregateShares acc
  pure (sigToBytes codec acc threshSig)

/-! ## What the verifier accepts -/

namespace BlsMultisigVerifier

variable (v : BlsMultisigVerifier G1 G2 GT)

/-- The ids that a signature of the required length names. -/
def signersOf (sigBuf : Bytes) : VectorOfShares :=
  ((fromBytes (sigBuf.drop v.codec.signatureSize)).toOption).getD .empty

variable {v : BlsMultisigVerifier G1 G2 GT}

omit [DecidableEq GT] in
/-- The loop over the ids ends with the sum of their keys, or behind the end of the table. -/
theorem foldlM_addPublicKey (ids : List ℕ) (publicKey : G2) :
    (∀ id ∈ ids, id ≤ v.numSigners) ∧ ids.foldlM v.addPublicKey publicKey =
        .ok (publicKey + (ids.map fun id => v.publicKeysVector.getD id 0).sum) ∨
      ∃ id ∈ ids, v.numSigners < id ∧
        ids.foldlM v.addPublicKey publicKey = .error (.keyOutOfRange id) := by
  induction ids generalizing publicKey with
  | nil =>
    left
    simp [pure, Except.pure]
  | cons id rest ih =>
    rw [foldlM_cons]
    by_cases hid : id ≤ v.numSigners
    · have hlt : id < v.publicKeysVector.length := by
        rw [v.length_publicKeysVector]
        omega
      have hkey : v.addPublicKey publicKey id =
          .ok (publicKey + v.publicKeysVector.getD id 0) := by
        simp [addPublicKey, getElem?_eq_getElem hlt]
      rw [hkey, Checked.ok_bind]
      rcases ih (publicKey + v.publicKeysVector.getD id 0) with ⟨hall, heq⟩ | ⟨i, hi, hgt, heq⟩
      · left
        refine ⟨by simpa [hid] using hall, ?_⟩
        rw [heq, map_cons, sum_cons, add_assoc]
      · right
        exact ⟨i, mem_cons_of_mem _ hi, hgt, heq⟩
    · right
      have hnone : v.publicKeysVector[id]? = none := by
        rw [getElem?_eq_none_iff, v.length_publicKeysVector]
        omega
      refine ⟨id, mem_cons_self .., Nat.lt_of_not_le hid, ?_⟩
      rw [addPublicKey, hnone]
      rfl

/-- **What `verify` computes** from a signature of the required length. -/
theorem verify_eq (hreq : v.reqSigners ≠ v.numSigners) (msg : Bytes) {sigBuf : Bytes}
    (hlen : sigBuf.length = v.requiredLengthForSignedData) :
    (∀ id ∈ (v.signersOf sigBuf).ids, id ≤ v.numSigners) ∧ v.verify msg sigBuf =
        .ok (verifyPoint v.pairing v.generator2 (v.mapToPoint msg)
          (v.codec.fromBytes (sigBuf.take v.codec.signatureSize))
          ((v.signersOf sigBuf).ids.map fun id => v.publicKeysVector.getD id 0).sum) ∨
      ∃ id ∈ (v.signersOf sigBuf).ids, v.numSigners < id ∧
        v.verify msg sigBuf = .error (.keyOutOfRange id) := by
  have hdrop : (sigBuf.drop v.codec.signatureSize).length ≤ getByteCount := by
    rw [length_drop, hlen, requiredLengthForSignedData, if_pos hreq]
    omega
  obtain ⟨signers, hsigners, -⟩ := fromBytes_eq hdrop
  have hnamed : v.signersOf sigBuf = signers := by simp [signersOf, hsigners, Except.toOption]
  have hverify : v.verify msg sigBuf = (do
      let publicKey ← signers.ids.foldlM v.addPublicKey 0
      pure (verifyPoint v.pairing v.generator2 (v.mapToPoint msg)
        (v.codec.fromBytes (sigBuf.take v.codec.signatureSize)) publicKey)) := by
    simp [verify, hreq, hsigners, Checked.require, hlen, Except.mapError]
  rw [hverify, hnamed]
  rcases foldlM_addPublicKey (v := v) signers.ids 0 with ⟨hall, heq⟩ | ⟨id, hid, hgt, heq⟩
  · left
    rw [heq, zero_add]
    exact ⟨hall, rfl⟩
  · right
    rw [heq]
    exact ⟨id, hid, hgt, rfl⟩

/-- The keys of the signers: `sk id` is the secret key of signer `id`. -/
def HasKeys (sk : ℕ → ℕ) : Prop :=
  ∀ id, 1 ≤ id → id ≤ v.numSigners → v.publicKeysVector.getD id 0 = sk id • v.generator2

omit [DecidableEq GT] in
theorem HasKeys.sum_eq {sk : ℕ → ℕ} (h : v.HasKeys sk) {ids : List ℕ}
    (hids : ∀ id ∈ ids, 1 ≤ id ∧ id ≤ v.numSigners) :
    (ids.map fun id => v.publicKeysVector.getD id 0).sum = (ids.map sk).sum • v.generator2 := by
  rw [sum_smul, map_map]
  congr 1
  apply map_congr_left
  intro id hid
  exact h id (hids id hid).1 (hids id hid).2

/-- `verify` keeps to the table, and accepts only what names enough signers. -/
def EnforcesThreshold (msg sigBuf : Bytes) : Prop :=
  (∀ id, v.verify msg sigBuf ≠ .error (.keyOutOfRange id)) ∧
    (v.verify msg sigBuf = .ok true →
      v.reqSigners ≤ (v.signersOf sigBuf).count ∧
        ∀ id ∈ (v.signersOf sigBuf).ids, 1 ≤ id ∧ id ≤ v.numSigners)

theorem enforcesThreshold_iff (hreq : v.reqSigners < v.numSigners) {sk : ℕ → ℕ} (hkeys : v.HasKeys sk)
    (hsep : ∀ x : G1, v.pairing x v.generator2 = 0 → x = 0) (msg : Bytes) {sigBuf : Bytes}
    (hlen : sigBuf.length = v.requiredLengthForSignedData) :
    v.EnforcesThreshold msg sigBuf ↔
      (∀ id ∈ (v.signersOf sigBuf).ids, id ≤ v.numSigners) ∧
        (v.reqSigners ≤ (v.signersOf sigBuf).count ∨
          v.codec.fromBytes (sigBuf.take v.codec.signatureSize) ≠
            ((v.signersOf sigBuf).ids.map sk).sum • v.mapToPoint msg) := by
  have hpos : ∀ id ∈ (v.signersOf sigBuf).ids, 1 ≤ id := fun id hid =>
    (mem_ids.1 hid).1
  unfold EnforcesThreshold
  rcases verify_eq (ne_of_lt hreq) msg hlen with ⟨hall, heq⟩ | ⟨id, hid, hgt, heq⟩
  · have hrange : ∀ id ∈ (v.signersOf sigBuf).ids, 1 ≤ id ∧ id ≤ v.numSigners := fun id hid =>
      ⟨hpos id hid, hall id hid⟩
    rw [heq, hkeys.sum_eq hrange]
    simp only [ne_eq, reduceCtorEq, not_false_eq_true, implies_true, true_and, Except.ok.injEq,
      verifyPoint_nsmul_iff hsep]
    constructor
    · intro h
      refine ⟨hall, ?_⟩
      by_cases hcount : v.reqSigners ≤ (v.signersOf sigBuf).count
      · exact Or.inl hcount
      · exact Or.inr fun hsig => hcount (h hsig).1
    · rintro ⟨-, hcount | hsig⟩ hval
      · exact ⟨hcount, hrange⟩
      · exact absurd hval hsig
  · constructor
    · intro h
      exact absurd heq (h.1 id)
    · intro h
      exact absurd (h.1 id hid) (not_le.2 hgt)

theorem verify_wrongSize (hreq : v.reqSigners ≠ v.numSigners) (msg : Bytes) {sigBuf : Bytes}
    (hlen : sigBuf.length ≠ v.requiredLengthForSignedData) :
    v.verify msg sigBuf = .error .wrongSize := by
  simp [verify, hreq, Checked.require, hlen]

/-! ## What the accumulator produces -/

/-- Shares that verify one by one verify together. -/
theorem verifyPoint_sum {h : G1} {ids : List ℕ} {share : ℕ → G1} {key : ℕ → G2}
    (hshares : ∀ id ∈ ids, verifyPoint v.pairing v.generator2 h (share id) (key id) = true) :
    verifyPoint v.pairing v.generator2 h (ids.map share).sum (ids.map key).sum = true := by
  simp only [verifyPoint, decide_eq_true_eq] at hshares ⊢
  induction ids with
  | nil => simp
  | cons id rest ih =>
    have hrest := ih fun id' hid' => hshares id' (mem_cons_of_mem _ hid')
    simp [hshares id (mem_cons_self ..), hrest]

omit [DecidableEq GT] in
/-- The parts of a serialised multisignature are read back. -/
theorem parts_of_append (x : G1) (bits : VectorOfShares) :
    v.signersOf (v.codec.toBytes x ++ bits.toBytes) = bits ∧
      v.codec.fromBytes ((v.codec.toBytes x ++ bits.toBytes).take v.codec.signatureSize) = x := by
  have hlen := v.codec.length_toBytes x
  constructor
  · rw [signersOf, drop_left' hlen, fromBytes_toBytes]
    rfl
  · rw [take_left' hlen, v.codec.fromBytes_toBytes]

/-- A multisignature verifies if every share does under the key of its signer. -/
theorem verify_append (hreq : v.reqSigners < v.numSigners) {msg : Bytes} {bits : VectorOfShares}
    {share : ℕ → G1} (hrange : ∀ id ∈ bits.ids, id ≤ v.numSigners)
    (hshares : ∀ id ∈ bits.ids, v.verifyShare msg id (share id) = true) :
    v.verify msg (v.codec.toBytes (bits.ids.map share).sum ++ bits.toBytes) = .ok true := by
  have hne := ne_of_lt hreq
  have hlen : (v.codec.toBytes (bits.ids.map share).sum ++ bits.toBytes).length =
      v.requiredLengthForSignedData := by
    rw [length_append, v.codec.length_toBytes, bits.length_toBytes,
      requiredLengthForSignedData, if_pos hne]
  obtain ⟨hbits, hpoint⟩ := parts_of_append (v := v) (bits.ids.map share).sum bits
  have hverify := verify_eq hne msg hlen
  rw [hbits, hpoint] at hverify
  rcases hverify with ⟨-, heq⟩ | ⟨id, hid, hgt, -⟩
  · rw [heq, verifyPoint_sum hshares]
  · exact absurd (hrange id hid) (not_le.2 hgt)

/-- **Every multisignature of the accumulator verifies**, whether it verified the shares or not, and
    whenever it learned the digest. -/
theorem verify_getFullSignedData (hreq : v.reqSigners < v.numSigners) (withShareVerification : Bool)
    {msg : Bytes} {before after : List (ℕ × G1)}
    (hdist : ThresholdAccumulator.Distinct v.numSigners (before ++ after))
    (hcount : (before ++ after).length = v.reqSigners)
    (hvalid : ∀ p ∈ before ++ after, v.verifyShare msg p.1 p.2 = true) :
    Checked.Meets (fun _ => ∃ p ∈ before ++ after, maxNumOfShares < p.1)
      (fun sigBuf => v.verify msg sigBuf = .ok true)
      (do
        let acc ← (v.newAccumulator withShareVerification).collect v.verifyShare before msg after
        getFullSignedData v.codec acc) := by
  apply (ThresholdAccumulator.collect_meets v.verifyShare 0 hdist (le_of_eq hcount) hvalid).bind
  rintro acc ⟨pending, hacc⟩
  have hbits : acc.validSharesBits.count = acc.reqSigners := by
    rw [hacc.valid_holds.count_of_distinct hdist, hcount, hacc.reqSigners_eq]
  have hne : acc.reqSigners ≠ acc.totalSigners := by
    rw [hacc.reqSigners_eq, hacc.totalSigners_eq]
    omega
  unfold getFullSignedData aggregateShares
  rw [Assert, Checked.require_of hbits]
  refine .ok ?_
  rw [sigToBytes, if_pos hne, ← foldl_map, ← sum_eq_foldl]
  apply verify_append hreq
  · intro id hid
    obtain ⟨p, hp, rfl, -⟩ := hacc.valid_holds.of_mem_ids hid
    exact (hdist.range p hp).2
  · intro id hid
    obtain ⟨p, hp, rfl, hshare⟩ := hacc.valid_holds.of_mem_ids hid
    rw [hshare]
    exact hvalid p hp

/-- **When the threshold is enforced.** Verification of a signature of the required length keeps to the
    table of keys and accepts only what names enough signers, exactly if the signature names no id
    behind the last signer and, in case it names too few, its point is not the sum of the shares of
    the signers it names. Other lengths are refused before the table is used, and every
    multisignature of the accumulator verifies. -/
theorem enforcesThreshold_iff_and_produced (hreq : v.reqSigners < v.numSigners) {sk : ℕ → ℕ}
    (hkeys : v.HasKeys sk) (hsep : ∀ x : G1, v.pairing x v.generator2 = 0 → x = 0)
    (msg sigBuf : Bytes) :
    (sigBuf.length = v.requiredLengthForSignedData →
      (v.EnforcesThreshold msg sigBuf ↔
        (∀ id ∈ (v.signersOf sigBuf).ids, id ≤ v.numSigners) ∧
          (v.reqSigners ≤ (v.signersOf sigBuf).count ∨
            v.codec.fromBytes (sigBuf.take v.codec.signatureSize) ≠
              ((v.signersOf sigBuf).ids.map sk).sum • v.mapToPoint msg))) ∧
    (sigBuf.length ≠ v.requiredLengthForSignedData → v.verify msg sigBuf = .error .wrongSize) ∧
    ∀ (withShareVerification : Bool) (before after : List (ℕ × G1)),
      ThresholdAccumulator.Distinct v.numSigners (before ++ after) →
      (before ++ after).length = v.reqSigners →
      (∀ p ∈ before ++ after, v.verifyShare msg p.1 p.2 = true) →
      let produced := do
        let acc ← (v.newAccumulator withShareVerification).collect v.verifyShare before msg after
        getFullSignedData v.codec acc
      (∀ sig, produced = .ok sig → v.verify msg sig = .ok true) ∧
        ((∀ p ∈ before ++ after, p.1 ≤ maxNumOfShares) → ∃ sig, produced = .ok sig) := by
  refine ⟨enforcesThreshold_iff hreq hkeys hsep msg, verify_wrongSize (Nat.ne_of_lt hreq) msg, ?_⟩
  intro withShareVerification before after hdist hcount hvalid produced
  have hmeets := verify_getFullSignedData hreq withShareVerification hdist hcount hvalid
  constructor
  · intro sig hsig
    exact hmeets.of_ok hsig
  · intro hmax
    have hreturns := (hmeets.weaken fun e ⟨p, hp, hgt⟩ =>
      absurd (hmax p hp) (Nat.not_le.2 hgt)).returns
    obtain ⟨sig, hsig, -⟩ := hreturns
    exact ⟨sig, hsig⟩

end BlsMultisigVerifier

end Multisig

/-! ## Four signers -/

/-- Points of the field with seven elements in one byte. -/
def oneByteCodec : PointCodec (ZMod 7) where
  signatureSize := 1
  toBytes := fun x => [UInt8.ofNat x.val]
  fromBytes := fun bytes => ((bytes.headD 0).toNat : ZMod 7)
  length_toBytes := fun _ => rfl
  fromBytes_toBytes := by decide

/-- Signer `id` has the key `id`; a message is mapped to the sum of its bytes. -/
def signersOfFour (reqSigners : ℕ) : BlsMultisigVerifier (ZMod 7) (ZMod 7) (ZMod 7) where
  pairing := AddMonoidHom.mul
  generator2 := 1
  mapToPoint := fun msg => ((1 + (msg.map UInt8.toNat).sum : ℕ) : ZMod 7)
  codec := oneByteCodec
  reqSigners := reqSigners
  numSigners := 4
  publicKeysVector := [0, 1, 2, 3, 4]
  length_publicKeysVector := rfl

/-- Three of the four signers are required. -/
def fourSigners : BlsMultisigVerifier (ZMod 7) (ZMod 7) (ZMod 7) := signersOfFour 3

theorem hasKeys_fourSigners : fourSigners.HasKeys fun id => id := by
  intro id hpos hle
  have hall : ∀ id ≤ 4, ([0, 1, 2, 3, 4] : List (ZMod 7)).getD id 0 = id • (1 : ZMod 7) := by decide
  exact hall id hle

theorem separates_fourSigners (x : ZMod 7)
    (h : fourSigners.pairing x fourSigners.generator2 = 0) : x = 0 := by
  simpa [fourSigners, signersOfFour] using h

theorem length_fourSigners (x : ZMod 7) (bits : VectorOfShares) :
    (fourSigners.codec.toBytes x ++ bits.toBytes).length =
      fourSigners.requiredLengthForSignedData := by
  rw [length_append, fourSigners.codec.length_toBytes, length_toBytes]
  decide

/-- The vector with the ids 1, 2 and 3. -/
def oneTwoThree : VectorOfShares :=
  ((empty.setBit 1 (by decide)).setBit 2 (by decide)).setBit 3 (by decide)

/-- The message `[1]` is mapped to 2, so the shares of the signers 1, 2 and 3 are 2, 4 and 6. Their sum
    is accepted in the name of the three, and so is what the accumulator makes of them. -/
theorem enforcesThreshold_fourSigners :
    fourSigners.EnforcesThreshold [1] (fourSigners.codec.toBytes (2 + 4 + 6) ++ oneTwoThree.toBytes) ∧
      ∃ sig, (do
          let acc ← (fourSigners.newAccumulator true).collect fourSigners.verifyShare [(1, 2)] [1]
            [(3, 6), (2, 4)]
          getFullSignedData fourSigners.codec acc) = .ok sig ∧
        fourSigners.verify [1] sig = .ok true := by
  obtain ⟨hsigners, -⟩ :=
    BlsMultisigVerifier.parts_of_append (v := fourSigners) (2 + 4 + 6) oneTwoThree
  have hresult := BlsMultisigVerifier.enforcesThreshold_iff_and_produced (v := fourSigners)
    (by decide) hasKeys_fourSigners separates_fourSigners [1]
  constructor
  · rw [(hresult _).1 (length_fourSigners _ oneTwoThree), hsigners]
    refine ⟨fun id hid => ?_, Or.inl (by decide)⟩
    have hdata : ∀ i ∈ oneTwoThree.data, i < 4 := by decide
    have hlt := hdata _ (mem_ids.1 hid).2
    show id ≤ 4
    omega
  · obtain ⟨hverifies, hreturns⟩ := (hresult []).2.2 true [(1, 2)] [(3, 6), (2, 4)]
      ⟨by decide, by decide⟩ rfl (by decide)
    obtain ⟨sig, hsig⟩ := hreturns (by decide)
    exact ⟨sig, hsig, hverifies sig hsig⟩

/-- **Counterexample.** The share of signer 1 in the name of signer 1 is accepted, although three signers
    are required; and an id behind the last signer reads behind the end of the table. -/
theorem fourSigners_accepts_one :
    fourSigners.verify [1] (fourSigners.codec.toBytes 2 ++ (empty.setBit 1 (by decide)).toBytes) =
        .ok true ∧
      (empty.setBit 1 (by decide)).count < fourSigners.reqSigners ∧
      ∃ id, fourSigners.verify [1] (fourSigners.codec.toBytes 2 ++
        (empty.setBit 5 (by decide)).toBytes) = .error (.keyOutOfRange id) := by
  refine ⟨?_, by decide, ?_⟩
  · have hids : (empty.setBit 1 (by decide)).ids = [1] := by simp [ids_eq, setBit, empty]
    have hone : fourSigners.verify [1] (fourSigners.codec.toBytes
        ((empty.setBit 1 (by decide)).ids.map fun _ => (2 : ZMod 7)).sum ++
          (empty.setBit 1 (by decide)).toBytes) = .ok true := by
      apply BlsMultisigVerifier.verify_append (by decide)
      all_goals
        rw [hids]
        decide
    rw [hids] at hone
    simpa using hone
  · have hfive : 5 ∈ (empty.setBit 5 (by decide)).ids := by
      rw [mem_ids, mem_setBit]
      simp
    obtain ⟨hsigners, -⟩ := BlsMultisigVerifier.parts_of_append (v := fourSigners) 2
      (empty.setBit 5 (by decide))
    rcases BlsMultisigVerifier.verify_eq (v := fourSigners) (by decide) [1]
      (length_fourSigners 2 _) with ⟨hall, -⟩ | ⟨id, -, -, hverify⟩
    · rw [hsigners] at hall
      exact absurd (hall 5 hfive) (by decide)
    · exact ⟨id, hverify⟩

end ConcordBft.Threshsign
