import ConcordBft.CollectorOfThresholdSignatures
import ConcordBft.Threshsign.BlsThresholdVerifier

set_option autoImplicit false

/-! # Jobs that combine signature shares (`CollectorOfThresholdSignatures::SignaturesProcessingJob`)

A job combines the required number of shares without looking at them and verifies the result. If the
result is bad it adds the shares once more, one by one, to an accumulator that verifies them, and
blames the replicas whose share did not increase the counter. -/

namespace ConcordBft

open Threshsign Checked CollectorOfThresholdSignatures List

/-- `SigData` -/
structure SigData where
  srcRepId : ReplicaId
  sigBody : Bytes
deriving DecidableEq, Repr

/-- The internal message that a job sends. -/
inductive JobResult where
  /-- `createInterCombinedSigFailed` -/
  | CombinedSigFailed (replicasWithBadSigs : List ReplicaId)
  /-- `createInterCombinedSigSucceeded` -/
  | CombinedSigSucceeded (combinedSig : Bytes)
deriving DecidableEq, Repr

namespace SignaturesProcessingJob

variable {G1 G2 GT : Type} [AddCommGroup G1] [AddCommGroup G2] [AddCommGroup GT] [DecidableEq GT]

variable (verifier : BlsThresholdVerifier Digest G1 G2 GT)

/-- One round of the loop that looks for bad shares: the accumulator, the counter that it returned
    last, and the replicas blamed so far. -/
def blameRound (s : ThresholdAccumulator Digest G1 × ℕ × List ReplicaId) (d : SigData) :
    Except Failure (ThresholdAccumulator Digest G1 × ℕ × List ReplicaId) := do
  let share := verifier.parseShare d.sigBody
  let r ← s.1.addNumById verifier.verifyShare share.1 share.2
  pure (r.1, r.2, if s.2.1 + 1 ≠ r.2 then s.2.2 ++ [d.srcRepId] else s.2.2)

/-- `execute` -/
def execute (expectedDigest : Digest) (sigDataItems : List SigData) : Except Failure JobResult := do
  let acc ← (verifier.newAccumulator false).addShares verifier.verifyShare
    (sigDataItems.map fun d => verifier.parseShare d.sigBody)
  let acc ← acc.setExpectedDigest verifier.verifyShare expectedDigest
  let sig ← verifier.getFullSignedData acc
  if verifier.verify expectedDigest sig then pure (.CombinedSigSucceeded sig)
  else do
    let accWithVer ← (verifier.newAccumulator true).setExpectedDigest verifier.verifyShare
      expectedDigest
    let s ← sigDataItems.foldlM (blameRound verifier) (accWithVer, 0, [])
    pure (.CombinedSigFailed s.2.2)

/-! ## Which shares count -/

/-- The shares of a job: the required number, of different replicas. Each carries the id of some
    signer, which need not be that of the sender. -/
structure JobShares (items : List SigData) : Prop where
  range : ∀ d ∈ items, 1 ≤ (verifier.parseShare d.sigBody).1 ∧
    (verifier.parseShare d.sigBody).1 ≤ verifier.numSigners
  nodup : (items.map (·.srcRepId)).Nodup
  length_eq : items.length = verifier.reqSigners

/-- Does the share verify under the key of the id that it carries? The accumulator for all signers but
    one does not ask. -/
def passes (digest : Digest) (d : SigData) : Bool :=
  verifier.isAlmostMultisig ||
    verifier.verifyShare digest (verifier.parseShare d.sigBody).1 (verifier.parseShare d.sigBody).2

/-- Does the share of a job increase the counter? No share in front of it that passes may carry the
    same id. -/
def counts (digest : Digest) (items : List SigData) (d : SigData) : Bool :=
  passes verifier digest d && (items.takeWhile fun d' => decide (d' ≠ d)).all fun d' =>
    !passes verifier digest d' ||
      decide ((verifier.parseShare d'.sigBody).1 ≠ (verifier.parseShare d.sigBody).1)

/-- Does the share verify under the key of the replica that sent it? -/
def isGood (digest : Digest) (d : SigData) : Bool :=
  verifier.verifyShare digest (d.srcRepId + 1) (verifier.parseShare d.sigBody).2

/-- What a job says about its shares: a combined signature that verifies, or the senders of the bad
    shares, of which there is at least one. -/
def RightResult (digest : Digest) (items : List SigData) : JobResult → Prop
  | .CombinedSigSucceeded sig => verifier.verify digest sig = true
  | .CombinedSigFailed bad =>
    bad = (items.filter fun d => !isGood verifier digest d).map (·.srcRepId) ∧ bad ≠ []

/-- Some share is bad, and the shares that count are those that verify under the keys of their
    senders. -/
def JudgedByOwnKeys (digest : Digest) (items : List SigData) : Prop :=
  (∃ d ∈ items, isGood verifier digest d = false) ∧
    ∀ d ∈ items, counts verifier digest items d = isGood verifier digest d

variable {verifier} {items : List SigData} {digest : Digest} {randomCoefs : List ℕ}

omit [DecidableEq GT] in
theorem JobShares.nodup_items (h : JobShares verifier items) : items.Nodup :=
  h.nodup.of_map _

/-- The shares in front of a share of the job. -/
theorem takeWhile_ne_eq {done rest : List SigData} {d : SigData} (hd : d ∉ done) :
    (done ++ d :: rest).takeWhile (fun d' => decide (d' ≠ d)) = done := by
  have hne : ∀ d' ∈ done, decide (d' ≠ d) = true := by
    intro d' hd'
    exact decide_eq_true fun heq => hd (heq ▸ hd')
  rw [takeWhile_append_of_pos hne]
  simp

/-- What the loop that looks for bad shares knows after the items `done`. -/
structure Blamed (verifier : BlsThresholdVerifier Digest G1 G2 GT) (digest : Digest)
    (items done : List SigData) (s : ThresholdAccumulator Digest G1 × ℕ × List ReplicaId) :
    Prop where
  kept : ∃ valid, ThresholdAccumulator.Keeps verifier.reqSigners verifier.numSigners
      (!verifier.isAlmostMultisig) (some digest) [] valid s.1 ∧
    ThresholdAccumulator.Distinct verifier.numSigners valid ∧ s.2.1 = valid.length ∧
    ∀ id, (∃ p ∈ valid, p.1 = id) ↔
      ∃ d ∈ done, passes verifier digest d = true ∧ (verifier.parseShare d.sigBody).1 = id
  count_le : s.2.1 ≤ done.length
  bad_eq : s.2.2 = (done.filter fun d => !counts verifier digest items d).map (·.srcRepId)

/-- One share: its sender is blamed exactly if the share does not count. -/
theorem Blamed.round (h : JobShares verifier items) (hmax : verifier.numSigners ≤ maxNumOfShares)
    {done rest : List SigData} {d : SigData} (hsplit : items = done ++ d :: rest)
    {s : ThresholdAccumulator Digest G1 × ℕ × List ReplicaId}
    (hs : Blamed verifier digest items done s) :
    Checked.Meets (fun _ => False) (Blamed verifier digest items (done ++ [d]))
      (blameRound verifier s d) := by
  obtain ⟨valid, hkeeps, hdist, hcount, hids⟩ := hs.kept
  have hrange := h.range d (by simp [hsplit])
  have hlt : done.length < verifier.reqSigners := by
    rw [← h.length_eq, hsplit, length_append, length_cons]
    omega
  have hnotMem : d ∉ done := by
    have hnodup := h.nodup_items
    rw [hsplit] at hnodup
    exact fun hd => disjoint_of_nodup_append hnodup hd mem_cons_self
  -- the share counts exactly if the accumulator keeps it
  have hcounts : counts verifier digest items d = true ↔ passes verifier digest d = true ∧
      ∀ r ∈ valid, r.1 ≠ (verifier.parseShare d.sigBody).1 := by
    have hnew : (∀ r ∈ valid, r.1 ≠ (verifier.parseShare d.sigBody).1) ↔
        ¬ ∃ p ∈ valid, p.1 = (verifier.parseShare d.sigBody).1 := by
      push Not
      rfl
    rw [hnew, hids, counts, hsplit, takeWhile_ne_eq hnotMem, Bool.and_eq_true, all_eq_true]
    simp only [Bool.or_eq_true, Bool.not_eq_true', decide_eq_true_eq]
    push Not
    simp only [← Bool.not_eq_true, imp_iff_not_or]
  unfold blameRound
  apply (hkeeps.addNumById_known verifier.verifyShare (by simp) hdist hrange
    (le_trans hrange.2 hmax) (by rw [← hcount]; exact lt_of_le_of_lt hs.count_le hlt)
    (show _ = passes verifier digest d by simp [passes])).bind
  rintro r ⟨hkeeps', hr⟩
  have hlen : r.2 = s.2.1 + (counts verifier digest items d).toNat := by
    rw [hr, hcount, ThresholdAccumulator.withNew]
    by_cases hc : counts verifier digest items d = true
    · rw [if_pos (hcounts.1 hc), hc]
      simp
    · rw [if_neg fun hnew => hc (hcounts.2 hnew), Bool.eq_false_iff.2 hc]
      simp
  refine .ok ⟨⟨_, hkeeps', hdist.withNew hrange _, hr, ?_⟩, ?_, ?_⟩
  · intro id
    rw [ThresholdAccumulator.exists_mem_withNew, hids]
    simp [or_and_right, exists_or]
  · have hle := hs.count_le
    have hone := Bool.toNat_le (counts verifier digest items d)
    simp only [length_append, length_singleton]
    omega
  · cases hc : counts verifier digest items d <;> simp [hlen, hc, hs.bad_eq]

/-- **The loop blames exactly the senders of the shares that do not count.** -/
theorem foldlM_blameRound (h : JobShares verifier items)
    (hmax : verifier.numSigners ≤ maxNumOfShares) {acc : ThresholdAccumulator Digest G1}
    (hacc : ThresholdAccumulator.Keeps verifier.reqSigners verifier.numSigners
      (!verifier.isAlmostMultisig) (some digest) [] [] acc) :
    ∃ s, items.foldlM (blameRound verifier) (acc, 0, []) = .ok s ∧
      Blamed verifier digest items items s := by
  apply Checked.Meets.returns
  apply meets_foldlM (Blamed verifier digest items)
  · exact ⟨⟨[], hacc, ⟨by simp, by simp⟩, rfl, by simp⟩, le_rfl, rfl⟩
  · intro done d rest s hsplit hs
    exact Blamed.round h hmax hsplit hs

/-- **What a job does**: it sends the combined signature if that verifies, and else the senders of the
    shares that do not count. The combined signature verifies if the shares carry different ids and
    every share verifies under the key of its id. -/
theorem execute_spec {sk : ℕ} (hdealt : verifier.Dealt sk randomCoefs)
    (hmax : verifier.numSigners ≤ maxNumOfShares) (digest : Digest) (h : JobShares verifier items) :
    ∃ sig, execute verifier digest items = .ok (
        if verifier.verify digest sig then .CombinedSigSucceeded sig
        else .CombinedSigFailed
          ((items.filter fun d => !counts verifier digest items d).map (·.srcRepId))) ∧
      (ThresholdAccumulator.Distinct verifier.numSigners
          (items.map fun d => verifier.parseShare d.sigBody) →
        (∀ p ∈ items.map fun d => verifier.parseShare d.sigBody,
          verifier.verifyShare digest p.1 p.2 = true) → verifier.verify digest sig = true) := by
  have hlen : (items.map fun d => verifier.parseShare d.sigBody).length = verifier.reqSigners := by
    rw [length_map, h.length_eq]
  have hrange : ∀ p ∈ items.map (fun d => verifier.parseShare d.sigBody),
      1 ≤ p.1 ∧ p.1 ≤ verifier.numSigners := by
    intro p hp
    obtain ⟨d, hd, rfl⟩ := mem_map.1 hp
    exact h.range d hd
  have hkeeps : ThresholdAccumulator.Keeps verifier.reqSigners verifier.numSigners false none [] []
      (.create verifier.reqSigners verifier.numSigners false 0 : ThresholdAccumulator Digest G1) :=
    ThresholdAccumulator.keeps_create ..
  -- the shares are combined without being looked at
  obtain ⟨acc, hadd, valid, hacc, hdist, hle, hall⟩ :=
    (hkeeps.addShares_unverified verifier.verifyShare hmax hrange (le_of_eq hlen)).returns
  have hset : acc.setExpectedDigest verifier.verifyShare digest =
      .ok { acc with expectedDigest := some digest } := by
    rw [ThresholdAccumulator.setExpectedDigest, if_neg (by simp [hacc.enabled_eq])]
    rfl
  obtain ⟨sig, hsig, hverify⟩ : ∃ sig,
      verifier.getFullSignedData { acc with expectedDigest := some digest } = .ok sig ∧
        (valid.length = verifier.reqSigners →
          (∀ p ∈ valid, verifier.verifyShare digest p.1 p.2 = true) →
            verifier.verify digest sig = true) :=
    BlsThresholdVerifier.Dealt.getFullSignedData_spec hacc.valid_holds hdist hdealt hmax
      hacc.totalSigners_eq (hlen ▸ hle) digest
  refine ⟨sig, ?_, ?_⟩
  · unfold execute
    rw [BlsThresholdVerifier.newAccumulator_eq, BlsThresholdVerifier.newAccumulator_eq,
      Bool.false_and, Bool.true_and, hadd, ok_bind, hset, ok_bind, hsig, ok_bind]
    split
    · rfl
    · obtain ⟨accWithVer, haccWithVer, hknown⟩ :=
        (ThresholdAccumulator.setExpectedDigest_create_meets verifier.verifyShare
          (!verifier.isAlmostMultisig) digest 0).returns
      obtain ⟨s, hs, hblamed⟩ := foldlM_blameRound h hmax hknown
      rw [haccWithVer, ok_bind, hs, ok_bind, hblamed.bad_eq]
      rfl
  · intro hdistinct hvalid
    obtain rfl := hall hdistinct
    exact hverify hlen hvalid

/-- The reported replicas are the right ones exactly if each share was judged by the right key. -/
theorem filter_counts_eq_iff (h : JobShares verifier items) :
    (items.filter fun d => !counts verifier digest items d).map (·.srcRepId) =
        (items.filter fun d => !isGood verifier digest d).map (·.srcRepId) ↔
      ∀ d ∈ items, counts verifier digest items d = isGood verifier digest d := by
  have hmem : ∀ (p : SigData → Bool), ∀ d ∈ items,
      (d.srcRepId ∈ (items.filter p).map (·.srcRepId) ↔ p d = true) := by
    intro p d hd
    constructor
    · intro hr
      obtain ⟨d', hd', heq⟩ := mem_map.1 hr
      obtain ⟨hmem, hp⟩ := mem_filter.1 hd'
      rwa [inj_on_of_nodup_map h.nodup hmem hd heq] at hp
    · intro hp
      exact mem_map_of_mem (mem_filter.2 ⟨hd, hp⟩)
  constructor
  · intro heq d hd
    have hcounts := hmem (fun d => !counts verifier digest items d) d hd
    rw [heq, hmem _ d hd] at hcounts
    exact Bool.not_inj (Bool.eq_iff_iff.2 hcounts.symm)
  · intro hsame
    congr 1
    apply filter_congr
    intro d hd
    rw [hsame d hd]

/-- **When a job is right**: its combined signature verifies, or its shares are judged by the keys of
    their senders. -/
theorem execute_rightResult_iff {sk : ℕ} (hdealt : verifier.Dealt sk randomCoefs)
    (hmax : verifier.numSigners ≤ maxNumOfShares) (digest : Digest) (h : JobShares verifier items) :
    ∃ r, execute verifier digest items = .ok r ∧
      (RightResult verifier digest items r ↔
        (∃ sig, r = .CombinedSigSucceeded sig) ∨ JudgedByOwnKeys verifier digest items) := by
  obtain ⟨sig, hexecute, -⟩ := execute_spec hdealt hmax digest h
  refine ⟨_, hexecute, ?_⟩
  by_cases hverify : verifier.verify digest sig = true
  · simp [hverify, RightResult]
  · rw [if_neg hverify]
    simp only [RightResult, reduceCtorEq, exists_false, false_or, JudgedByOwnKeys]
    rw [filter_counts_eq_iff h, and_comm]
    apply and_congr_left
    intro hsame
    rw [(filter_counts_eq_iff h).2 hsame, ne_eq, map_eq_nil_iff, filter_eq_nil_iff]
    push Not
    simp

/-! ## Shares that carry the id of their sender -/

section

variable (verifier)

/-- The shares are of different replicas, and each carries the id of the replica that sent it. -/
structure OwnShares (items : List SigData) : Prop where
  own : ∀ d ∈ items, (verifier.parseShare d.sigBody).1 = d.srcRepId + 1 ∧
    d.srcRepId < verifier.numSigners
  nodup : (items.map (·.srcRepId)).Nodup

/-- Shares that cannot mislead a job: they are all good, or they are judged by the keys of their
    senders. -/
def Harmless (digest : Digest) (items : List SigData) : Prop :=
  (OwnShares verifier items ∧ ∀ d ∈ items, isGood verifier digest d = true) ∨
    JudgedByOwnKeys verifier digest items

end

omit [DecidableEq GT] in
theorem OwnShares.distinct (h : OwnShares verifier items) :
    ThresholdAccumulator.Distinct verifier.numSigners
      (items.map fun d => verifier.parseShare d.sigBody) where
  range := by
    intro p hp
    obtain ⟨d, hd, rfl⟩ := mem_map.1 hp
    obtain ⟨hid, hlt⟩ := h.own d hd
    rw [hid]
    exact ⟨Nat.le_add_left 1 _, hlt⟩
  nodup := by
    have hids : (items.map fun d => verifier.parseShare d.sigBody).map (·.1) =
        (items.map (·.srcRepId)).map (· + 1) := by
      rw [map_map, map_map]
      apply map_congr_left
      intro d hd
      exact (h.own d hd).1
    rw [hids]
    exact h.nodup.map fun a b hab => Nat.succ.inj hab

/-- With share verification, shares that carry the ids of their senders are harmless. -/
theorem OwnShares.harmless (h : OwnShares verifier items) (digest : Digest)
    (hnot : verifier.isAlmostMultisig = false ∨ ∀ d ∈ items, isGood verifier digest d = true) :
    Harmless verifier digest items := by
  by_cases hall : ∀ d ∈ items, isGood verifier digest d = true
  · exact Or.inl ⟨h, hall⟩
  · refine Or.inr ⟨by simpa using hall, ?_⟩
    intro d hd
    have hpasses : passes verifier digest d = isGood verifier digest d := by
      rw [passes, hnot.resolve_right hall, Bool.false_or, (h.own d hd).1, isGood]
    rw [counts, hpasses]
    -- no other share carries the id of this one
    have hnew : ((items.takeWhile fun d' => decide (d' ≠ d)).all fun d' =>
        !passes verifier digest d' ||
          decide ((verifier.parseShare d'.sigBody).1 ≠ (verifier.parseShare d.sigBody).1)) = true := by
      rw [all_eq_true]
      intro d' hd'
      have hmem : d' ∈ items := (takeWhile_sublist _).subset hd'
      have hne : d' ≠ d := by simpa using all_eq_true.1 all_takeWhile d' hd'
      have hid : (verifier.parseShare d'.sigBody).1 ≠ (verifier.parseShare d.sigBody).1 := by
        rw [(h.own d' hmem).1, (h.own d hd).1]
        exact fun heq => hne (inj_on_of_nodup_map h.nodup hmem hd (Nat.succ.inj heq))
      simp [hid]
    rw [hnew, Bool.and_true]

/-- **A job with harmless shares is right.** -/
theorem execute_rightResult {sk : ℕ} (hdealt : verifier.Dealt sk randomCoefs)
    (hmax : verifier.numSigners ≤ maxNumOfShares) (h : JobShares verifier items)
    (hharmless : Harmless verifier digest items) :
    ∃ r, execute verifier digest items = .ok r ∧ RightResult verifier digest items r := by
  rcases hharmless with ⟨hown, hgood⟩ | hjudged
  · obtain ⟨sig, hexecute, hverify⟩ := execute_spec hdealt hmax digest h
    have hvalid : verifier.verify digest sig = true := by
      apply hverify hown.distinct
      intro p hp
      obtain ⟨d, hd, rfl⟩ := mem_map.1 hp
      rw [(hown.own d hd).1]
      exact hgood d hd
    rw [hvalid] at hexecute
    exact ⟨_, hexecute, hvalid⟩
  · obtain ⟨r, hexecute, hright⟩ := execute_rightResult_iff hdealt hmax digest h
    exact ⟨r, hexecute, hright.2 (Or.inr hjudged)⟩

/-! ## Retries

A collector whose job failed marks the blamed replicas and starts the next job. -/

/-- The collector gets the result of its job. -/
def onJobResult (numOfRequiredSigs : ℕ) (myId : ReplicaId) (c : CollectorOfThresholdSignatures) :
    JobResult → Except Failure CollectorOfThresholdSignatures
  | .CombinedSigFailed bad =>
    c.onCombiningFailed numOfRequiredSigs c.expectedSeqNumber c.expectedView bad
  | .CombinedSigSucceeded sig =>
    c.onCombiningSucceeded myId c.expectedSeqNumber c.expectedView sig

section

variable (verifier) (myId : ReplicaId) (shareOf : ReplicaId → Bytes)
  (c : CollectorOfThresholdSignatures)

/-- The running job ends and its result is delivered; `shareOf` gives the share that a replica sent. -/
def deliverJob : Except Failure CollectorOfThresholdSignatures :=
  match c.job with
  | some (.SignaturesProcessingJob digest reps) => do
      let r ← execute verifier digest (reps.map fun r => { srcRepId := r, sigBody := shareOf r })
      onJobResult verifier.reqSigners myId c r
  | _ => pure c

/-- Several jobs, one after the other. -/
def deliverJobs : ℕ → CollectorOfThresholdSignatures →
    Except Failure CollectorOfThresholdSignatures
  | 0, c => pure c
  | n + 1, c => do
      let c ← deliverJob verifier myId shareOf c
      deliverJobs n c

/-- Is the share that a replica sent a good one? -/
def hasGoodShare (digest : Digest) (shareOf : ReplicaId → Bytes) (r : ReplicaId) : Bool :=
  isGood verifier digest { srcRepId := r, sigBody := shareOf r }

/-- A collector that knows its digest, holds enough good shares, and works on some of its shares. No
    choice of the required number of shares can mislead a job. -/
structure Collecting : Prop where
  keys_nodup : (c.replicasInfo.map (·.1)).Nodup
  range : ∀ r ∈ c.usableReplicas, 1 ≤ (verifier.parseShare (shareOf r)).1 ∧
    (verifier.parseShare (shareOf r)).1 ≤ verifier.numSigners
  harmless : ∀ items : List ReplicaId, items.Nodup → items.length = verifier.reqSigners →
    (∀ r ∈ items, r ∈ c.usableReplicas) → Harmless verifier c.expectedDigest
      (items.map fun r => { srcRepId := r, sigBody := shareOf r })
  counter_eq : c.numberOfUnknownSignatures = c.usableReplicas.length
  seqNumber_ne : c.expectedSeqNumber ≠ 0
  incomplete : c.combinedValidSignatureMsg = none
  noCandidate : c.candidateCombinedSignatureMsg = none
  running : ∃ items, c.job = some (.SignaturesProcessingJob c.expectedDigest items) ∧ items.Nodup ∧
    items.length = verifier.reqSigners ∧ ∀ r ∈ items, r ∈ c.usableReplicas
  enough : verifier.reqSigners ≤
    (c.usableReplicas.filter (hasGoodShare verifier c.expectedDigest shareOf)).length

/-- The number of usable shares that are bad. -/
def badShares : ℕ :=
  (c.usableReplicas.filter fun r => !hasGoodShare verifier c.expectedDigest shareOf r).length

end

variable {shareOf : ReplicaId → Bytes} {c : CollectorOfThresholdSignatures}

theorem Collecting.nodup (h : Collecting verifier shareOf c) : c.usableReplicas.Nodup :=
  h.keys_nodup.sublist (filter_sublist.map _)

/-- The shares of the running job. -/
theorem Collecting.jobShares (h : Collecting verifier shareOf c) {items : List ReplicaId}
    (hnodup : items.Nodup) (hlen : items.length = verifier.reqSigners)
    (hmem : ∀ r ∈ items, r ∈ c.usableReplicas) :
    JobShares verifier (items.map fun r => { srcRepId := r, sigBody := shareOf r }) where
  range := by
    intro d hd
    obtain ⟨r, hr, rfl⟩ := mem_map.1 hd
    exact h.range r (hmem r hr)
  nodup := by
    simpa [Function.comp_def] using hnodup
  length_eq := by
    rw [length_map, hlen]

/-- The collector after the shares of the replicas `bad` were marked. -/
def withoutBad (bad : List ReplicaId) (c : CollectorOfThresholdSignatures) :
    CollectorOfThresholdSignatures :=
  { c with
    job := none
    replicasInfo := markInvalid bad c.replicasInfo
    numberOfUnknownSignatures := c.numberOfUnknownSignatures - bad.length }

theorem usableReplicas_withoutBad (bad : List ReplicaId) (c : CollectorOfThresholdSignatures) :
    (withoutBad bad c).usableReplicas = c.usableReplicas.filter fun r => r ∉ bad :=
  markInvalid_usable bad c.replicasInfo

section

variable {bad : List ReplicaId} (hmem : ∀ r ∈ bad, r ∈ c.usableReplicas)
  (hbad : ∀ r ∈ bad, hasGoodShare verifier c.expectedDigest shareOf r = false)

include hbad

theorem goodShares_withoutBad :
    (withoutBad bad c).usableReplicas.filter (hasGoodShare verifier c.expectedDigest shareOf) =
      c.usableReplicas.filter (hasGoodShare verifier c.expectedDigest shareOf) := by
  rw [usableReplicas_withoutBad, filter_filter]
  apply filter_congr
  intro r _
  by_cases hr : r ∈ bad
  · simp [hbad r hr]
  · simp [hr]

include hmem

theorem badShares_withoutBad_lt (hne : bad ≠ []) :
    badShares verifier shareOf (withoutBad bad c) < badShares verifier shareOf c := by
  have hdigest : (withoutBad bad c).expectedDigest = c.expectedDigest := rfl
  unfold badShares
  obtain ⟨r, rest, hcons⟩ := exists_cons_of_ne_nil hne
  have hr : r ∈ bad := by simp [hcons]
  rw [hdigest, usableReplicas_withoutBad, filter_comm, length_filter_lt_length_iff_exists]
  exact ⟨r, mem_filter.2 ⟨hmem r hr, by simpa using hbad r hr⟩, by simp [hr]⟩

/-- **A failed job makes progress**: the collector starts another one, and has fewer bad shares. -/
theorem Collecting.onCombiningFailed (h : Collecting verifier shareOf c) (hne : bad ≠ [])
    (hnodup : bad.Nodup) :
    ∃ c', c.onCombiningFailed verifier.reqSigners c.expectedSeqNumber c.expectedView bad = .ok c' ∧
      Collecting verifier shareOf c' ∧
      badShares verifier shareOf c' < badShares verifier shareOf c := by
  obtain ⟨items, hjob, -⟩ := h.running
  have hgood := goodShares_withoutBad hbad
  have hcand : (withoutBad bad c).candidateCombinedSignatureMsg = none := h.noCandidate
  have hvalid : (withoutBad bad c).combinedValidSignatureMsg = none := h.incomplete
  have hsub : ∀ r ∈ (withoutBad bad c).usableReplicas, r ∈ c.usableReplicas := by
    intro r hr
    rw [usableReplicas_withoutBad] at hr
    exact mem_of_mem_filter hr
  have hcounter : (withoutBad bad c).numberOfUnknownSignatures =
      (withoutBad bad c).usableReplicas.length := by
    rw [usableReplicas_withoutBad, length_filter_notMem h.nodup hnodup hmem, ← h.counter_eq]
    rfl
  have hlen : verifier.reqSigners ≤ (withoutBad bad c).usableReplicas.length := by
    have hle := length_filter_le (hasGoodShare verifier c.expectedDigest shareOf)
      (withoutBad bad c).usableReplicas
    rw [hgood] at hle
    exact le_trans h.enough hle
  have hjob' : (withoutBad bad c).nextJob verifier.reqSigners =
      some (.SignaturesProcessingJob c.expectedDigest
        ((withoutBad bad c).usableReplicas.take verifier.reqSigners)) := by
    rw [nextJob_of_shares (by simp [withoutBad, h.seqNumber_ne]) hcand,
      if_pos (hcounter ▸ hlen)]
    rfl
  have hfailed : c.onCombiningFailed verifier.reqSigners c.expectedSeqNumber c.expectedView bad =
      (withoutBad bad c).trySendToBkThread verifier.reqSigners := by
    unfold CollectorOfThresholdSignatures.onCombiningFailed
    rw [checkCompletion_ok hjob h.incomplete, ok_bind]
    rfl
  rw [hfailed, trySendToBkThread_eq hcounter.le hvalid, hjob']
  refine ⟨_, rfl, ?_, badShares_withoutBad_lt hmem hbad hne⟩
  exact {
    keys_nodup := (markInvalid_keys bad c.replicasInfo).symm ▸ h.keys_nodup
    range := fun r hr => h.range r (hsub r hr)
    harmless := fun items hnodup hlen hmem =>
      h.harmless items hnodup hlen fun r hr => hsub r (hmem r hr)
    counter_eq := hcounter
    seqNumber_ne := h.seqNumber_ne
    incomplete := hvalid
    noCandidate := hcand
    running := by
      refine ⟨_, rfl, ?_, ?_, fun r hr => mem_of_mem_take hr⟩
      · rw [usableReplicas_withoutBad]
        exact (h.nodup.filter _).sublist (take_sublist _ _)
      · rw [length_take]
        omega
    enough := hgood.symm ▸ h.enough }

end

theorem deliverJobs_of_idle (myId : ReplicaId) (hidle : c.job = none) (n : ℕ) :
    deliverJobs verifier myId shareOf n c = .ok c := by
  induction n with
  | zero => rfl
  | succ n ih =>
    have hone : deliverJob verifier myId shareOf c = .ok c := by
      unfold deliverJob
      rw [hidle]
      rfl
    rw [deliverJobs, hone, ok_bind, ih]

/-- One job of a collector with enough good shares: it completes the collector or makes progress. -/
theorem Collecting.deliverJob {sk : ℕ} (hdealt : verifier.Dealt sk randomCoefs)
    (hmax : verifier.numSigners ≤ maxNumOfShares)
    (h : Collecting verifier shareOf c) (myId : ReplicaId) :
    ∃ c', deliverJob verifier myId shareOf c = .ok c' ∧
      (c'.isComplete = true ∧ c'.job = none ∨
        Collecting verifier shareOf c' ∧
          badShares verifier shareOf c' < badShares verifier shareOf c) := by
  obtain ⟨items, hjob, hnodup, hlen, hmem⟩ := h.running
  obtain ⟨r, hr, hright⟩ := execute_rightResult hdealt hmax (h.jobShares hnodup hlen hmem)
    (h.harmless items hnodup hlen hmem)
  have hdeliver : SignaturesProcessingJob.deliverJob verifier myId shareOf c =
      onJobResult verifier.reqSigners myId c r := by
    unfold SignaturesProcessingJob.deliverJob
    rw [hjob]
    dsimp only
    rw [hr, ok_bind]
  rw [hdeliver]
  cases r with
  | CombinedSigSucceeded sig =>
    have hcheck : c.checkCompletion c.expectedSeqNumber c.expectedView = .ok () := by
      simp [checkCompletion, Assert, require, hjob, h.incomplete]
    rw [onJobResult, onCombiningSucceeded, hcheck]
    exact ⟨_, rfl, Or.inl ⟨rfl, rfl⟩⟩
  | CombinedSigFailed bad =>
    obtain ⟨hbad, hne⟩ := hright
    have hblamed : bad = items.filter fun r =>
        !hasGoodShare verifier c.expectedDigest shareOf r := by
      rw [hbad, filter_map]
      simp [Function.comp_def, hasGoodShare]
    have hnot : ∀ r ∈ bad, hasGoodShare verifier c.expectedDigest shareOf r = false := by
      intro r hr
      rw [hblamed, mem_filter, Bool.not_eq_true'] at hr
      exact hr.2
    obtain ⟨c', hc', hcollecting, hless⟩ := Collecting.onCombiningFailed
      (fun r hr => hmem r (mem_of_mem_filter (hblamed ▸ hr))) hnot h hne (hblamed ▸ hnodup.filter _)
    exact ⟨c', hc', Or.inr ⟨hcollecting, hless⟩⟩

/-- **Retries end.** With at most `n` bad shares the collector is complete after at most `n` failed
    jobs. -/
theorem Collecting.complete {sk : ℕ} (hdealt : verifier.Dealt sk randomCoefs)
    (hmax : verifier.numSigners ≤ maxNumOfShares)
    (myId : ReplicaId) {n : ℕ} (h : Collecting verifier shareOf c)
    (hn : badShares verifier shareOf c ≤ n) :
    ∃ c', deliverJobs verifier myId shareOf (n + 1) c = .ok c' ∧ c'.isComplete = true := by
  induction n generalizing c with
  | zero =>
    obtain ⟨c', hc', hcases⟩ := h.deliverJob hdealt hmax myId
    rcases hcases with ⟨hcomplete, -⟩ | ⟨-, hless⟩
    · exact ⟨c', by rw [deliverJobs, hc']; rfl, hcomplete⟩
    · omega
  | succ n ih =>
    obtain ⟨c', hc', hcases⟩ := h.deliverJob hdealt hmax myId
    rw [deliverJobs, hc']
    rcases hcases with ⟨hcomplete, hidle⟩ | ⟨hcollecting, hless⟩
    · exact ⟨c', deliverJobs_of_idle myId hidle _, hcomplete⟩
    · exact ih hcollecting (by omega)

/-- **When bad shares cannot block the slow path.** A job is right exactly if its combined signature
    verifies or its shares are judged by the keys of their senders. A job whose shares are harmless is
    right: these are shares that carry the ids of their senders, if more than one replica may be faulty
    or slow or if all of them are good. A collector with enough good shares, none of whose jobs can be
    misled, is complete after at most `F` failed jobs. -/
theorem badShares_cannot_block {F C : ℕ}
    (hN : verifier.numSigners = 3 * F + 2 * C + 1) (hreq : verifier.reqSigners = 2 * F + C + 1)
    {sk : ℕ} {randomCoefs : List ℕ} (hdealt : verifier.Dealt sk randomCoefs)
    (hmax : verifier.numSigners ≤ maxNumOfShares) :
    (∀ (digest : Digest) (items : List SigData), JobShares verifier items →
      ∃ r, execute verifier digest items = .ok r ∧
        (RightResult verifier digest items r ↔
          (∃ sig, r = .CombinedSigSucceeded sig) ∨ JudgedByOwnKeys verifier digest items)) ∧
    (∀ (digest : Digest) (items : List SigData), OwnShares verifier items →
      2 ≤ F + C ∨ (∀ d ∈ items, isGood verifier digest d = true) →
        Harmless verifier digest items) ∧
    (∀ (digest : Digest) (items : List SigData), JobShares verifier items →
      Harmless verifier digest items →
        ∃ r, execute verifier digest items = .ok r ∧ RightResult verifier digest items r) ∧
    ∀ (shareOf : ReplicaId → Bytes) (c : CollectorOfThresholdSignatures) (myId : ReplicaId),
      Collecting verifier shareOf c → badShares verifier shareOf c ≤ F →
        ∃ c', deliverJobs verifier myId shareOf (F + 1) c = .ok c' ∧ c'.isComplete = true := by
  refine ⟨?_, ?_, ?_, ?_⟩
  · intro digest items hjob
    exact execute_rightResult_iff hdealt hmax digest hjob
  · intro digest items hown hFC
    refine hown.harmless digest (hFC.imp_left fun hFC => ?_)
    apply decide_eq_false
    omega
  · intro digest items hjob hharmless
    exact execute_rightResult hdealt hmax hjob hharmless
  · intro shareOf c myId hcollecting hbad
    exact hcollecting.complete hdealt hmax myId hbad

end SignaturesProcessingJob

/-! ## Two small groups of replicas -/

/-- A point in one byte. -/
def byteCodec (q : ℕ) [NeZero q] (hq : q ≤ 256) : PointCodec (ZMod q) where
  signatureSize := 1
  toBytes := fun x => [UInt8.ofNat x.val]
  fromBytes := fun bytes => ((bytes.headD 0).toNat : ZMod q)
  length_toBytes := fun _ => rfl
  fromBytes_toBytes := by
    intro x
    have hlt : x.val < 256 := Nat.lt_of_lt_of_le (ZMod.val_lt x) hq
    simp [Nat.mod_eq_of_lt hlt]

/-- The scheme over the integers modulo a small prime, with the polynomial `1 + x + x² + …`. -/
def smallScheme (q : ℕ) [NeZero q] (hq : q ≤ 256) (reqSigners numSigners : ℕ) :
    BlsThresholdVerifier Digest (ZMod q) (ZMod q) (ZMod q) where
  pairing := AddMonoidHom.mul
  generator2 := 1
  groupOrder := q
  mapToPoint := fun _ => 1
  codec := byteCodec q hq
  reqSigners := reqSigners
  numSigners := numSigners
  publicKey := 1
  publicKeysVector :=
    (BlsThresholdKeygen.create (1 : ZMod q) q 1 (List.replicate (reqSigners - 1) 1)).pkShares

theorem dealt_smallScheme (q : ℕ) [NeZero q] (hq : q ≤ 256) (hprime : q.Prime)
    {reqSigners numSigners : ℕ} (hlt : numSigners < q) (hreq : 1 ≤ reqSigners) :
    (smallScheme q hq reqSigners numSigners).Dealt 1 (List.replicate (reqSigners - 1) 1) where
  prime := hprime
  signers_lt := hlt
  order := by
    simp [smallScheme]
  threshold := by
    rw [length_replicate]
    exact Nat.sub_add_cancel hreq
  publicKey_eq := by simp [smallScheme]
  publicKeys_eq := fun id _ _ => rfl
  separates := by
    intro x hx
    simpa [smallScheme] using hx

/-- The shares of five of six replicas; the one of replica 3 is bad. -/
def sharesOfSix (r : ReplicaId) : Bytes := [0, 0, 0, UInt8.ofNat (r + 1), [4, 1, 5, 0, 2].getD r 0]

/-- A collector with these shares, whose first job has the bad one. -/
def collectorOfSix : CollectorOfThresholdSignatures where
  replicasInfo := (List.range 5).map fun r =>
    (r, { partialSigMsg := ⟨r, 0, 1⟩, state := .Unknown })
  numberOfUnknownSignatures := 5
  job := some (.SignaturesProcessingJob 0 [0, 1, 2, 3])
  expectedSeqNumber := 1
  expectedDigest := 0

open SignaturesProcessingJob in
/-- Four replicas, three shares required: three good shares are combined. Six replicas, four shares
    required: one share is bad, and the collector is complete after one failed job. -/
theorem badShares_cannot_block_sixReplicas :
    (∃ r, execute (smallScheme 5 (by decide) 3 4) 0
        [⟨0, [0, 0, 0, 1, 3]⟩, ⟨1, [0, 0, 0, 2, 2]⟩, ⟨2, [0, 0, 0, 3, 3]⟩] = .ok r ∧
      RightResult (smallScheme 5 (by decide) 3 4) 0
        [⟨0, [0, 0, 0, 1, 3]⟩, ⟨1, [0, 0, 0, 2, 2]⟩, ⟨2, [0, 0, 0, 3, 3]⟩] r) ∧
    badShares (smallScheme 7 (by decide) 4 6) sharesOfSix collectorOfSix = 1 ∧
    ∃ c', deliverJobs (smallScheme 7 (by decide) 4 6) 5 sharesOfSix 2 collectorOfSix = .ok c' ∧
      c'.isComplete = true := by
  have hfour := badShares_cannot_block (F := 1) (C := 0) rfl rfl
    (dealt_smallScheme 5 (by decide) (by decide) (by decide) (by decide)) (by decide)
  have hsix := badShares_cannot_block (F := 1) (C := 1) rfl rfl
    (dealt_smallScheme 7 (by decide) (by decide) (by decide) (by decide)) (by decide)
  have hbad : badShares (smallScheme 7 (by decide) 4 6) sharesOfSix collectorOfSix = 1 := by
    decide +kernel
  have husable : ∀ r ∈ collectorOfSix.usableReplicas, r < 5 := by decide
  have hid : ∀ r < 5, ((smallScheme 7 (by decide) 4 6).parseShare (sharesOfSix r)).1 = r + 1 := by
    decide
  refine ⟨?_, hbad, ?_⟩
  · apply hfour.2.2.1 0 _ ⟨by decide, by decide, rfl⟩
    apply hfour.2.1 0 _ ⟨by decide, by decide⟩
    exact Or.inr (by decide +kernel)
  · apply hsix.2.2.2 _ _ 5 _ (le_of_eq hbad)
    exact {
      keys_nodup := by decide
      range := by
        intro r hr
        have hlt := husable r hr
        rw [hid r hlt]
        exact ⟨Nat.le_add_left 1 r, Nat.lt_of_lt_of_le hlt (by decide)⟩
      harmless := by
        intro items hnodup _ hmem
        refine hsix.2.1 0 _ ⟨?_, by simpa [Function.comp_def] using hnodup⟩ (Or.inl le_rfl)
        intro d hd
        obtain ⟨r, hr, rfl⟩ := mem_map.1 hd
        have hlt := husable r (hmem r hr)
        exact ⟨hid r hlt, Nat.lt_of_lt_of_le hlt (by decide)⟩
      counter_eq := by decide
      seqNumber_ne := by decide
      incomplete := rfl
      noCandidate := rfl
      running := ⟨_, rfl, by decide, rfl, by decide⟩
      enough := by decide +kernel }

/-- **Counterexample.** Four replicas, three shares required: the share of replica 2 is bad, the job
    fails, and nobody is blamed, so the next job has the same shares. With six replicas, replica 0
    sends a copy of the share of replica 1, and replica 1 is blamed for it. -/
theorem execute_blames_nobody_fourReplicas :
    ((SignaturesProcessingJob.execute (smallScheme 5 (by decide) 3 4) 0
        [⟨0, [0, 0, 0, 1, 3]⟩, ⟨1, [0, 0, 0, 2, 2]⟩, ⟨2, [0, 0, 0, 3, 0]⟩]).toOption =
          some (.CombinedSigFailed []) ∧
      SignaturesProcessingJob.isGood (smallScheme 5 (by decide) 3 4) 0 ⟨2, [0, 0, 0, 3, 0]⟩ =
        false) ∧
    ((SignaturesProcessingJob.execute (smallScheme 7 (by decide) 4 6) 0
        [⟨0, [0, 0, 0, 2, 1]⟩, ⟨1, [0, 0, 0, 2, 1]⟩, ⟨2, [0, 0, 0, 3, 5]⟩, ⟨3, [0, 0, 0, 4, 1]⟩]).toOption
          = some (.CombinedSigFailed [1]) ∧
      SignaturesProcessingJob.isGood (smallScheme 7 (by decide) 4 6) 0 ⟨1, [0, 0, 0, 2, 1]⟩ = true) := by
  decide +kernel

end ConcordBft
