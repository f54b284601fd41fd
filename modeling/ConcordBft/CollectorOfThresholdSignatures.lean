import ConcordBft.Messages
import Mathlib.Data.List.Perm.Subperm

set_option autoImplicit false

/-! # Collecting signature shares (`CollectorOfThresholdSignatures.hpp`)

A collector gathers the shares on one digest, or takes a combined signature that somebody else
computed. It verifies nothing itself: when it knows the digest and has a candidate or enough shares,
it starts one job in the background, and the job comes back with its result later. A combined
signature is kept as valid only after a job found it so.

The job that is running is part of the state. Jobs that were started before the collector was reset are
not: `BackgroundJobs` models the thread pool, and shows that the handlers of `ReplicaImp` ignore their
results, because the view or the window has changed. -/

namespace ConcordBft

open Checked List

/-- Whether a share was found to be invalid. -/
inductive SigState where
  | Unknown
  | Invalid
deriving DecidableEq, Repr

/-- The share of a replica. -/
structure RepInfo where
  partialSigMsg : SignedSharePartial
  state : SigState
deriving DecidableEq, Repr

/-- What runs in the background. -/
inductive CollectorJob where
  /-- Combine the shares of the given replicas and verify the result. -/
  | SignaturesProcessingJob (expectedDigest : Digest) (sigDataItems : List ReplicaId)
  | CombinedSigVerificationJob (expectedDigest : Digest) (combinedSig : Bytes)
deriving DecidableEq, Repr

/-- `job.isSome` is `processingSignaturesInTheBackground`; `numOfRequiredSigs` is an argument of the
    operations. -/
structure CollectorOfThresholdSignatures where
  replicasInfo : List (ReplicaId × RepInfo) := []
  numberOfUnknownSignatures : ℕ := 0
  combinedValidSignatureMsg : Option SignedShareFull := none
  candidateCombinedSignatureMsg : Option SignedShareFull := none
  job : Option CollectorJob := none
  expectedSeqNumber : SeqNum := 0
  expectedView : ViewNum := 0
  expectedDigest : Digest := Digest.zero
deriving DecidableEq, Repr

namespace CollectorOfThresholdSignatures

variable (numOfRequiredSigs : ℕ) (c : CollectorOfThresholdSignatures)

/-- Whether the replica has sent its share. -/
def hasPartialMsgFromReplica (repId : ReplicaId) : Bool := (c.replicasInfo.lookup repId).isSome

/-- The share of a replica. -/
def getPartialMsgFromReplica (repId : ReplicaId) : Option SignedSharePartial :=
  (c.replicasInfo.lookup repId).map (·.partialSigMsg)

/-- The signature, once it was verified. -/
def getMsgWithValidCombinedSignature : Option SignedShareFull := c.combinedValidSignatureMsg

/-- Whether there is a valid signature. -/
def isComplete : Bool := c.combinedValidSignatureMsg.isSome

/-- The replicas whose shares are not known to be bad. -/
def usableReplicas : List ReplicaId :=
  (c.replicasInfo.filter fun r => r.2.state != .Invalid).map (·.1)

def trySendToBkThread : Except Failure CollectorOfThresholdSignatures := do
  Assert (c.combinedValidSignatureMsg = none)
  if c.job.isSome = true ∨ c.expectedSeqNumber = 0 then pure c
  else
    match c.candidateCombinedSignatureMsg with
    | some m => pure { c with
        job := some (.CombinedSigVerificationJob c.expectedDigest m.signatureBody) }
    | none =>
      if numOfRequiredSigs ≤ c.numberOfUnknownSignatures then do
        let sigDataItems := c.usableReplicas.take numOfRequiredSigs
        Assert (sigDataItems.length = numOfRequiredSigs)
        pure { c with job := some (.SignaturesProcessingJob c.expectedDigest sigDataItems) }
      else pure c

/-- Takes the first share of a replica. -/
def addMsgWithPartialSignature (partialSigMsg : SignedSharePartial) (repId : ReplicaId) :
    Except Failure (CollectorOfThresholdSignatures × Bool) :=
  if c.combinedValidSignatureMsg.isSome = true ∨ c.hasPartialMsgFromReplica repId = true then
    pure (c, false)
  else do
    let c ← trySendToBkThread numOfRequiredSigs { c with
      replicasInfo := c.replicasInfo ++ [(repId, ⟨partialSigMsg, .Unknown⟩)]
      numberOfUnknownSignatures := c.numberOfUnknownSignatures + 1 }
    pure (c, true)

/-- Takes a signature as the candidate. -/
def addMsgWithCombinedSignature (combinedSigMsg : SignedShareFull) :
    Except Failure (CollectorOfThresholdSignatures × Bool) :=
  if c.combinedValidSignatureMsg.isSome = true ∨ c.candidateCombinedSignatureMsg.isSome = true then
    pure (c, false)
  else do
    let c ← trySendToBkThread numOfRequiredSigs
      { c with candidateCombinedSignatureMsg := some combinedSigMsg }
    pure (c, true)

variable (seqNumber : SeqNum) (view : ViewNum)

/-- The collector learns what is signed. -/
def setExpected (digest : Digest) : Except Failure CollectorOfThresholdSignatures := do
  Assert (seqNumber ≠ 0)
  Assert (c.expectedSeqNumber = 0)
  Assert (c.job = none)
  trySendToBkThread numOfRequiredSigs { c with
    expectedSeqNumber := seqNumber
    expectedView := view
    expectedDigest := digest }

/-- The assertions that the three completion functions start with. -/
def checkCompletion : Except Failure Unit := do
  Assert (c.expectedSeqNumber = seqNumber)
  Assert (c.expectedView = view)
  Assert (c.job.isSome = true)
  Assert (c.combinedValidSignatureMsg = none)

/-- The replicas after the given ones were found to have sent bad shares. -/
def markInvalid (replicasWithBadSigs : List ReplicaId) (infos : List (ReplicaId × RepInfo)) :
    List (ReplicaId × RepInfo) :=
  infos.map fun r =>
    if r.1 ∈ replicasWithBadSigs then (r.1, { r.2 with state := .Invalid }) else r

/-- `onCompletionOfSignaturesProcessing`, if we found bad signatures -/
def onCombiningFailed (replicasWithBadSigs : List ReplicaId) :
    Except Failure CollectorOfThresholdSignatures := do
  c.checkCompletion seqNumber view
  trySendToBkThread numOfRequiredSigs { c with
    job := none
    replicasInfo := markInvalid replicasWithBadSigs c.replicasInfo
    numberOfUnknownSignatures := c.numberOfUnknownSignatures - replicasWithBadSigs.length }

/-- `onCompletionOfSignaturesProcessing`, if we compute a valid combined signature -/
def onCombiningSucceeded (myId : ReplicaId) (seqNumber : SeqNum) (view : ViewNum)
    (combinedSig : Bytes) : Except Failure CollectorOfThresholdSignatures := do
  c.checkCompletion seqNumber view
  pure { c with
    job := none
    candidateCombinedSignatureMsg := none
    combinedValidSignatureMsg := some ⟨myId, view, seqNumber, combinedSig⟩ }

/-- The candidate was verified. -/
def onCompletionOfCombinedSigVerification (isValid : Bool) :
    Except Failure CollectorOfThresholdSignatures := do
  c.checkCompletion seqNumber view
  Assert (c.candidateCombinedSignatureMsg.isSome = true)
  if isValid then
    pure { c with
      job := none
      combinedValidSignatureMsg := c.candidateCombinedSignatureMsg
      candidateCombinedSignatureMsg := none }
  else
    trySendToBkThread numOfRequiredSigs
      { c with job := none, candidateCombinedSignatureMsg := none }

/-! ## What the operations keep -/

/-- A job works on the expected digest, and a verification on the candidate. -/
def JobFor : CollectorJob → Prop
  | .SignaturesProcessingJob digest _ => digest = c.expectedDigest
  | .CombinedSigVerificationJob digest sig =>
    digest = c.expectedDigest ∧
      ∃ m, c.candidateCombinedSignatureMsg = some m ∧ m.signatureBody = sig

/-- The invariant of a collector: its counter is not above the number of usable shares, a job runs
    only while the collector waits for a signature on a known digest, what counts as valid verifies,
    and the combined signatures it holds are among the ones it should be given (`Good`). -/
structure Inv (verify : Digest → Bytes → Bool) (Good : SignedShareFull → Prop)
    (c : CollectorOfThresholdSignatures) : Prop where
  keys_nodup : (c.replicasInfo.map (·.1)).Nodup
  counter_le : c.numberOfUnknownSignatures ≤ c.usableReplicas.length
  job_waiting : ∀ j, c.job = some j →
    c.expectedSeqNumber ≠ 0 ∧ c.combinedValidSignatureMsg = none ∧ c.JobFor j
  valid_verified : ∀ m, c.combinedValidSignatureMsg = some m →
    c.expectedSeqNumber ≠ 0 ∧ verify c.expectedDigest m.signatureBody = true
  candidate_good : ∀ m, c.candidateCombinedSignatureMsg = some m → Good m
  valid_good : ∀ m, c.combinedValidSignatureMsg = some m → Good m

variable {verify : Digest → Bytes → Bool} {Good : SignedShareFull → Prop}
  {c : CollectorOfThresholdSignatures} {required : ℕ} {m : SignedShareFull}

theorem inv_empty : Inv verify Good {} where
  keys_nodup := nodup_nil
  counter_le := le_refl _
  job_waiting := nofun
  valid_verified := nofun
  candidate_good := nofun
  valid_good := nofun

/-- The job after `trySendToBkThread`. -/
def nextJob (required : ℕ) (c : CollectorOfThresholdSignatures) : Option CollectorJob :=
  if c.job.isSome = true ∨ c.expectedSeqNumber = 0 then c.job
  else
    match c.candidateCombinedSignatureMsg with
    | some m => some (.CombinedSigVerificationJob c.expectedDigest m.signatureBody)
    | none =>
      if required ≤ c.numberOfUnknownSignatures then
        some (.SignaturesProcessingJob c.expectedDigest (c.usableReplicas.take required))
      else none

theorem nextJob_of_busy (h : c.job.isSome = true ∨ c.expectedSeqNumber = 0) :
    c.nextJob required = c.job := if_pos h

theorem nextJob_of_candidate (h : ¬ (c.job.isSome = true ∨ c.expectedSeqNumber = 0))
    (hm : c.candidateCombinedSignatureMsg = some m) :
    c.nextJob required =
      some (.CombinedSigVerificationJob c.expectedDigest m.signatureBody) := by
  rw [nextJob, if_neg h, hm]

theorem nextJob_of_shares (h : ¬ (c.job.isSome = true ∨ c.expectedSeqNumber = 0))
    (hnone : c.candidateCombinedSignatureMsg = none) :
    c.nextJob required = if required ≤ c.numberOfUnknownSignatures then
      some (.SignaturesProcessingJob c.expectedDigest (c.usableReplicas.take required)) else none := by
  rw [nextJob, if_neg h, hnone]

/-- `trySendToBkThread` may start a job and does nothing else. -/
theorem trySendToBkThread_eq (hcount : c.numberOfUnknownSignatures ≤ c.usableReplicas.length)
    (hvalid : c.combinedValidSignatureMsg = none) :
    trySendToBkThread required c = .ok { c with job := c.nextJob required } := by
  unfold trySendToBkThread
  rw [assert_bind_of hvalid]
  by_cases hbusy : c.job.isSome = true ∨ c.expectedSeqNumber = 0
  · rw [if_pos hbusy, nextJob_of_busy hbusy]
    rfl
  rw [if_neg hbusy]
  have hnone : c.job = none := by simpa using (not_or.1 hbusy).1
  cases hcand : c.candidateCombinedSignatureMsg with
  | some m =>
    rw [nextJob_of_candidate hbusy hcand]
    rfl
  | none =>
    rw [nextJob_of_shares hbusy hcand]
    dsimp only
    by_cases henough : required ≤ c.numberOfUnknownSignatures
    · have hlength : (c.usableReplicas.take required).length = required := by
        rw [length_take]
        omega
      rw [if_pos henough, if_pos henough, assert_bind_of hlength]
      rfl
    · rw [if_neg henough, if_neg henough, ← hnone, ← hcand]
      rfl

theorem Inv.send (h : Inv verify Good c) (required : ℕ)
    (hvalid : c.combinedValidSignatureMsg = none) :
    Inv verify Good { c with job := c.nextJob required } := by
  refine { h with job_waiting := ?_ }
  intro j hj
  by_cases hbusy : c.job.isSome = true ∨ c.expectedSeqNumber = 0
  · exact h.job_waiting j ((nextJob_of_busy hbusy).symm.trans hj)
  have hseq := (not_or.1 hbusy).2
  rcases c.candidateCombinedSignatureMsg.eq_none_or_eq_some with hcand | ⟨m, hcand⟩
  · have hshares := (nextJob_of_shares hbusy hcand).symm.trans hj
    split_ifs at hshares
    obtain rfl := Option.some.inj hshares
    exact ⟨hseq, hvalid, rfl⟩
  · obtain rfl := Option.some.inj ((nextJob_of_candidate hbusy hcand).symm.trans hj)
    exact ⟨hseq, hvalid, rfl, m, hcand, rfl⟩

variable (required)

/-- The collector waits for the same signature and has the same result as before. -/
structure SameTarget (c c' : CollectorOfThresholdSignatures) : Prop where
  seqNumber_eq : c'.expectedSeqNumber = c.expectedSeqNumber
  view_eq : c'.expectedView = c.expectedView
  digest_eq : c'.expectedDigest = c.expectedDigest
  valid_eq : c'.combinedValidSignatureMsg = c.combinedValidSignatureMsg

theorem SameTarget.refl (c : CollectorOfThresholdSignatures) : SameTarget c c := ⟨rfl, rfl, rfl, rfl⟩

theorem lookup_isSome_iff {l : List (ReplicaId × RepInfo)} {i : ReplicaId} :
    (l.lookup i).isSome = true ↔ i ∈ l.map (·.1) := by
  induction l with
  | nil => simp
  | cons r rest ih =>
    obtain ⟨k, x⟩ := r
    rw [lookup_cons]
    by_cases h : i = k
    · simp [h]
    · have hk : (i == k) = false := by simpa using h
      rw [hk]
      simp [h]

section

variable (h : Inv verify Good c)
include h

theorem Inv.withShare (m : SignedSharePartial) {repId : ReplicaId}
    (hnew : c.hasPartialMsgFromReplica repId = false) :
    Inv verify Good { c with
      replicasInfo := c.replicasInfo ++ [(repId, ⟨m, .Unknown⟩)]
      numberOfUnknownSignatures := c.numberOfUnknownSignatures + 1 } := by
  have hkey : repId ∉ c.replicasInfo.map (·.1) := by
    intro hmem
    exact absurd (lookup_isSome_iff.2 hmem) (Bool.eq_false_iff.1 hnew)
  refine ⟨?_, ?_, h.job_waiting, h.valid_verified, h.candidate_good, h.valid_good⟩
  · rw [map_append, nodup_append]
    refine ⟨h.keys_nodup, by simp, fun a ha b hb hab => hkey ?_⟩
    obtain rfl : b = repId := by simpa using hb
    exact hab ▸ ha
  · have := h.counter_le
    simpa [usableReplicas] using this

/-- A share of a replica that is not known yet is added, unless the signature is complete. -/
theorem addMsgWithPartialSignature_spec (m : SignedSharePartial) (repId : ReplicaId) :
    ∃ c' added, addMsgWithPartialSignature required c m repId = .ok (c', added) ∧ Inv verify Good c' ∧
      SameTarget c c' ∧
      (added = true ↔ c.combinedValidSignatureMsg = none ∧ c.hasPartialMsgFromReplica repId = false)
      ∧ c'.replicasInfo =
        if added then c.replicasInfo ++ [(repId, ⟨m, .Unknown⟩)] else c.replicasInfo := by
  unfold addMsgWithPartialSignature
  split_ifs with hknown
  · refine ⟨c, false, rfl, h, SameTarget.refl c, ⟨nofun, ?_⟩, rfl⟩
    rintro ⟨hnone, hpart⟩
    rcases hknown with hk | hk
    · rw [hnone] at hk
      simp at hk
    · rw [hpart] at hk
      simp at hk
  obtain ⟨hnone, hpart⟩ := not_or.1 hknown
  have hvalid : c.combinedValidSignatureMsg = none := by simpa using hnone
  have hinv := h.withShare m (by simpa using hpart)
  rw [trySendToBkThread_eq hinv.counter_le hvalid]
  exact ⟨_, true, rfl, hinv.send required hvalid, ⟨rfl, rfl, rfl, rfl⟩, by simp [hvalid, hpart], rfl⟩

theorem Inv.withCandidate (hcand : c.candidateCombinedSignatureMsg = none) (hm : Good m) :
    Inv verify Good { c with candidateCombinedSignatureMsg := some m } := by
  refine ⟨h.keys_nodup, h.counter_le, fun j hj => ?_, h.valid_verified,
    fun x hx => Option.some.inj hx ▸ hm, h.valid_good⟩
  obtain ⟨hseq, hval, hfor⟩ := h.job_waiting j hj
  refine ⟨hseq, hval, ?_⟩
  cases j with
  | SignaturesProcessingJob d ids => exact hfor
  | CombinedSigVerificationJob d sig =>
    -- a verification runs on a candidate, and there is none
    obtain ⟨_, x, hx, _⟩ := hfor
    exact absurd (hcand.symm.trans hx) (by simp)

theorem addMsgWithCombinedSignature_spec (hm : Good m) :
    ∃ c' added, addMsgWithCombinedSignature required c m = .ok (c', added) ∧ Inv verify Good c' ∧
      SameTarget c c' ∧ c'.replicasInfo = c.replicasInfo := by
  unfold addMsgWithCombinedSignature
  split_ifs with hknown
  · exact ⟨c, false, rfl, h, SameTarget.refl c, rfl⟩
  obtain ⟨hnone, hcand⟩ := not_or.1 hknown
  have hvalid : c.combinedValidSignatureMsg = none := by simpa using hnone
  have hinv := h.withCandidate (by simpa using hcand) hm
  rw [trySendToBkThread_eq hinv.counter_le hvalid]
  exact ⟨_, true, rfl, hinv.send required hvalid, ⟨rfl, rfl, rfl, rfl⟩, rfl⟩

section

variable (hnew : c.expectedSeqNumber = 0)
include hnew

theorem Inv.valid_eq_none : c.combinedValidSignatureMsg = none := by
  by_contra hsome
  obtain ⟨m, hm⟩ := Option.ne_none_iff_exists'.1 hsome
  exact (h.valid_verified m hm).1 hnew

theorem Inv.job_eq_none : c.job = none := by
  by_contra hsome
  obtain ⟨j, hj⟩ := Option.ne_none_iff_exists'.1 hsome
  exact (h.job_waiting j hj).1 hnew

theorem Inv.withExpected (s : SeqNum) (v : ViewNum) (d : Digest) : Inv verify Good { c with
      expectedSeqNumber := s
      expectedView := v
      expectedDigest := d } := by
  refine ⟨h.keys_nodup, h.counter_le, fun j hj => ?_, fun m hm => ?_, h.candidate_good,
    h.valid_good⟩
  · exact absurd ((h.job_eq_none hnew).symm.trans hj) (by simp)
  · exact absurd ((h.valid_eq_none hnew).symm.trans hm) (by simp)

/-- A collector learns once which digest it collects signatures on. -/
theorem setExpected_spec {s : SeqNum} (hs : s ≠ 0) (v : ViewNum) (d : Digest) :
    ∃ c', setExpected required c s v d = .ok c' ∧ Inv verify Good c' ∧ c'.expectedSeqNumber = s ∧
      c'.expectedView = v ∧ c'.expectedDigest = d ∧ c'.combinedValidSignatureMsg = none ∧
      c'.replicasInfo = c.replicasInfo := by
  have hvalid := h.valid_eq_none hnew
  have hinv := h.withExpected hnew s v d
  unfold setExpected
  rw [assert_bind_of hs, assert_bind_of hnew, assert_bind_of (h.job_eq_none hnew),
    trySendToBkThread_eq hinv.counter_le hvalid]
  exact ⟨_, rfl, hinv.send required hvalid, rfl, rfl, rfl, hvalid, rfl⟩

end

/-! ## The results of the jobs -/

theorem setExpected_asserts (s : SeqNum) (v : ViewNum) (d : Digest) :
    Asserts (fun c' => s ≠ 0 ∧ c.expectedSeqNumber = 0 ∧ Inv verify Good c' ∧
      c'.expectedSeqNumber = s ∧ c'.expectedView = v ∧ c'.expectedDigest = d ∧
      c'.combinedValidSignatureMsg = none) (setExpected required c s v d) := by
  by_cases hfresh : s ≠ 0 ∧ c.expectedSeqNumber = 0
  · obtain ⟨c', hc, hinv, h1, h2, h3, h4, -⟩ := setExpected_spec required h hfresh.2 hfresh.1 v d
    rw [hc]
    exact .ok ⟨hfresh.1, hfresh.2, hinv, h1, h2, h3, h4⟩
  · unfold setExpected
    exact asserts_bind fun h1 => asserts_bind fun h2 => absurd ⟨h1, h2⟩ hfresh

end

theorem markInvalid_keys (bad : List ReplicaId) (infos : List (ReplicaId × RepInfo)) :
    (markInvalid bad infos).map (·.1) = infos.map (·.1) := by
  rw [markInvalid, map_map]
  refine map_congr_left fun r _ => ?_
  by_cases h : r.1 ∈ bad <;> simp [h]

theorem markInvalid_usable (bad : List ReplicaId) (infos : List (ReplicaId × RepInfo)) :
    ((markInvalid bad infos).filter fun r => r.2.state != .Invalid).map (·.1) =
      ((infos.filter fun r => r.2.state != .Invalid).map (·.1)).filter fun i => i ∉ bad := by
  induction infos with
  | nil => rfl
  | cons r rest ih =>
    rw [markInvalid]
    rw [markInvalid] at ih
    by_cases hbad : r.1 ∈ bad
    · by_cases hst : r.2.state = .Invalid <;> simp [hst, hbad, ih]
    · by_cases hst : r.2.state = .Invalid <;> simp [hst, hbad, ih]

theorem length_filter_mem (l bad : List ReplicaId) : l.length =
    (l.filter fun i => i ∈ bad).length + (l.filter fun i => i ∉ bad).length := by
  simpa using length_eq_length_filter_add (l := l) fun i => decide (i ∈ bad)

/-- At most as many replicas are ruled out as were found bad. -/
theorem length_sub_le_filter {l : List ReplicaId} (hl : l.Nodup) (bad : List ReplicaId) :
    l.length - bad.length ≤ (l.filter fun i => i ∉ bad).length := by
  have hin : (l.filter fun i => i ∈ bad).length ≤ bad.length :=
    (subperm_of_subset (hl.filter _)
      fun i hi => of_decide_eq_true (mem_filter.1 hi).2).length_le
  rw [length_filter_mem l bad]
  omega

/-- Ruling out members of a list without repetitions makes it shorter by their number. -/
theorem length_filter_notMem {l bad : List ReplicaId} (hl : l.Nodup) (hbad : bad.Nodup)
    (hsub : ∀ r ∈ bad, r ∈ l) : (l.filter fun r => r ∉ bad).length = l.length - bad.length := by
  have hperm : (l.filter fun r => r ∈ bad).Perm bad := by
    rw [perm_ext_iff_of_nodup (hl.filter _) hbad]
    intro r
    rw [mem_filter, decide_eq_true_eq]
    exact ⟨fun h => h.2, fun h => ⟨hsub r h, h⟩⟩
  rw [length_filter_mem l bad, hperm.length_eq, Nat.add_sub_cancel_left]

theorem checkCompletion_ok {j : CollectorJob} (hj : c.job = some j)
    (hvalid : c.combinedValidSignatureMsg = none) :
    c.checkCompletion c.expectedSeqNumber c.expectedView = .ok () := by
  have hsome : c.job.isSome = true := by simp [hj]
  unfold checkCompletion
  simp only [Assert, require_of hsome, require_of hvalid, require_of, ok_bind]

section

variable (h : Inv verify Good c)
include h

theorem Inv.withoutBad (bad : List ReplicaId) : Inv verify Good { c with
      job := none
      replicasInfo := markInvalid bad c.replicasInfo
      numberOfUnknownSignatures := c.numberOfUnknownSignatures - bad.length } := by
  refine ⟨?_, ?_, nofun, h.valid_verified, h.candidate_good, h.valid_good⟩
  · rw [markInvalid_keys]
    exact h.keys_nodup
  · show c.numberOfUnknownSignatures - bad.length ≤ _
    have hnodup : c.usableReplicas.Nodup := h.keys_nodup.sublist (filter_sublist.map _)
    refine le_trans ?_ (le_of_le_of_eq (length_sub_le_filter hnodup bad)
      (congrArg length (markInvalid_usable bad c.replicasInfo).symm))
    exact Nat.sub_le_sub_right h.counter_le _

theorem onCombiningFailed_spec {j : CollectorJob} (hj : c.job = some j) (bad : List ReplicaId) :
    ∃ c', onCombiningFailed required c c.expectedSeqNumber c.expectedView bad = .ok c' ∧
      Inv verify Good c' ∧ SameTarget c c' ∧ c'.replicasInfo = markInvalid bad c.replicasInfo := by
  have hvalid := (h.job_waiting j hj).2.1
  have hinv := h.withoutBad bad
  unfold onCombiningFailed
  rw [checkCompletion_ok hj hvalid, trySendToBkThread_eq hinv.counter_le hvalid]
  exact ⟨_, rfl, hinv.send required hvalid, ⟨rfl, rfl, rfl, rfl⟩, rfl⟩

theorem onCombiningSucceeded_spec {j : CollectorJob} (hj : c.job = some j) (myId : ReplicaId)
    {sig : Bytes} (hsig : verify c.expectedDigest sig = true)
    (hgood : Good ⟨myId, c.expectedView, c.expectedSeqNumber, sig⟩) :
    ∃ c', onCombiningSucceeded c myId c.expectedSeqNumber c.expectedView sig = .ok c' ∧
      Inv verify Good c' ∧ c'.expectedSeqNumber = c.expectedSeqNumber ∧
      c'.expectedView = c.expectedView ∧ c'.expectedDigest = c.expectedDigest ∧
      c'.combinedValidSignatureMsg = some ⟨myId, c.expectedView, c.expectedSeqNumber, sig⟩ ∧
      c'.replicasInfo = c.replicasInfo := by
  obtain ⟨hseq, hvalid, -⟩ := h.job_waiting j hj
  unfold onCombiningSucceeded
  rw [checkCompletion_ok hj hvalid]
  refine ⟨_, rfl, ⟨h.keys_nodup, h.counter_le, nofun, fun m hm => ?_,
    nofun, fun m hm => ?_⟩, rfl, rfl, rfl, rfl, rfl⟩
  · obtain rfl := Option.some.inj hm
    exact ⟨hseq, hsig⟩
  · exact Option.some.inj hm ▸ hgood

theorem Inv.withoutCandidate :
    Inv verify Good { c with job := none, candidateCombinedSignatureMsg := none } :=
  ⟨h.keys_nodup, h.counter_le, nofun, h.valid_verified, nofun, h.valid_good⟩

/-- The result of a verification job: the candidate becomes the valid signature or is dropped. -/
theorem onCompletionOfCombinedSigVerification_spec {d : Digest} {sig : Bytes}
    (hj : c.job = some (.CombinedSigVerificationJob d sig)) :
    ∃ c', onCompletionOfCombinedSigVerification required c c.expectedSeqNumber c.expectedView
        (verify d sig) = .ok c' ∧
      Inv verify Good c' ∧ c'.expectedSeqNumber = c.expectedSeqNumber ∧
      c'.expectedView = c.expectedView ∧ c'.expectedDigest = c.expectedDigest ∧
      c'.combinedValidSignatureMsg =
        (if verify d sig then c.candidateCombinedSignatureMsg else none) ∧
      c'.replicasInfo = c.replicasInfo := by
  obtain ⟨hseq, hvalid, rfl, m, hm, rfl⟩ := h.job_waiting _ hj
  have hsome : c.candidateCombinedSignatureMsg.isSome = true := by simp [hm]
  unfold onCompletionOfCombinedSigVerification
  rw [checkCompletion_ok hj hvalid, assert_bind_of hsome]
  split_ifs with hver
  · refine ⟨_, rfl, ⟨h.keys_nodup, h.counter_le, nofun, fun m' hm' => ?_,
      nofun, h.candidate_good⟩, rfl, rfl, rfl, rfl, rfl⟩
    obtain rfl : m = m' := Option.some.inj (hm.symm.trans hm')
    exact ⟨hseq, hver⟩
  · rw [trySendToBkThread_eq h.withoutCandidate.counter_le hvalid]
    exact ⟨_, rfl, h.withoutCandidate.send required hvalid, rfl, rfl, rfl, hvalid, rfl⟩

end

end CollectorOfThresholdSignatures

end ConcordBft
