import ConcordBft.BackgroundJobs
import ConcordBft.SeqNumInfo.Proofs

set_option autoImplicit false

/-! # What the operations keep of a collector and of a slot

`Prompt` is the invariant of a collector that has started every job it could start: its counter is the
number of the shares that are not marked as invalid, a job on shares has the required number of them,
and without a job the collector lacks a target, or shares, or it is complete. -/

namespace ConcordBft

open Checked SeqNumInfo

namespace CollectorOfThresholdSignatures

variable {verify : Digest → Bytes → Bool} {Good : SignedShareFull → Prop} {required : ℕ}
  {valid : ReplicaId → Bool} {c : CollectorOfThresholdSignatures}

/-- A collector between the change of a field and `trySendToBkThread`. -/
structure Counted (verify : Digest → Bytes → Bool) (Good : SignedShareFull → Prop) (required : ℕ)
    (valid : ReplicaId → Bool) (c : CollectorOfThresholdSignatures) : Prop where
  base : c.Inv verify Good
  counter_eq : c.numberOfUnknownSignatures = c.usableReplicas.length
  shares : ∀ d items, c.job = some (.SignaturesProcessingJob d items) →
    items.length = required ∧ items.Nodup ∧ ∀ i ∈ items, i ∈ c.usableReplicas
  blamed : ∀ r ∈ c.replicasInfo, r.2.state = .Invalid → valid r.1 = false

/-- A collector that has started every job that it could start. -/
structure Prompt (verify : Digest → Bytes → Bool) (Good : SignedShareFull → Prop) (required : ℕ)
    (valid : ReplicaId → Bool) (c : CollectorOfThresholdSignatures) : Prop extends
    Counted verify Good required valid c where
  idle : c.job = none → c.expectedSeqNumber ≠ 0 → c.combinedValidSignatureMsg = none →
    c.candidateCombinedSignatureMsg = none ∧ c.numberOfUnknownSignatures < required

theorem prompt_empty : Prompt verify Good required valid {} where
  base := inv_empty
  counter_eq := rfl
  shares := nofun
  blamed := nofun
  idle := fun _ h => absurd rfl h

theorem nodup_usableReplicas (h : c.Inv verify Good) : c.usableReplicas.Nodup :=
  h.keys_nodup.sublist (List.filter_sublist.map _)

/-- **Sending to the background** leaves nothing that could be started. -/
theorem Counted.send (h : Counted verify Good required valid c)
    (hvalid : c.combinedValidSignatureMsg = none) :
    Prompt verify Good required valid { c with job := c.nextJob required } := by
  by_cases hbusy : c.job.isSome = true ∨ c.expectedSeqNumber = 0
  · rw [nextJob_of_busy hbusy]
    refine { h with idle := ?_ }
    intro hnone hseq
    rcases hbusy with hsome | hzero
    · exact absurd hsome (by simp [show c.job = none from hnone])
    · exact absurd hzero hseq
  have hbase := h.base.send required hvalid
  -- what may be started now
  rcases c.candidateCombinedSignatureMsg.eq_none_or_eq_some with hcand | ⟨m, hcand⟩
  swap
  · rw [nextJob_of_candidate hbusy hcand] at hbase ⊢
    exact ⟨⟨hbase, h.counter_eq, nofun, h.blamed⟩, nofun⟩
  rw [nextJob_of_shares hbusy hcand] at hbase ⊢
  by_cases henough : required ≤ c.numberOfUnknownSignatures
  · rw [if_pos henough] at hbase ⊢
    refine ⟨⟨hbase, h.counter_eq, fun d items hitems => ?_, h.blamed⟩, nofun⟩
    obtain ⟨-, rfl⟩ := CollectorJob.SignaturesProcessingJob.inj (Option.some.inj hitems)
    refine ⟨?_, (List.take_sublist _ _).nodup (nodup_usableReplicas h.base), ?_⟩
    · rw [List.length_take, ← h.counter_eq]
      omega
    · exact fun i hi => List.mem_of_mem_take hi
  · have hsame : ({ c with job := none } : CollectorOfThresholdSignatures) = c := by
      rw [← show c.job = none by simpa using (not_or.1 hbusy).1]
    rw [if_neg henough, hsame]
    exact { h with idle := fun _ _ _ => ⟨hcand, Nat.lt_of_not_le henough⟩ }

theorem nextJob_keeps (required : ℕ) {j : CollectorJob} (hj : c.job = some j) :
    c.nextJob required = some j := by
  rw [nextJob_of_busy (Or.inl (by simp [hj])), hj]

/-! ## Operations on a collector -/

/-- The collector waits for a signature on the same number and view, and has lost no share. -/
structure Continues (c c' : CollectorOfThresholdSignatures) : Prop where
  seqNumber_eq : c'.expectedSeqNumber = c.expectedSeqNumber
  view_eq : c'.expectedView = c.expectedView
  keeps_shares : ∀ i, c.hasPartialMsgFromReplica i = true → c'.hasPartialMsgFromReplica i = true

theorem Continues.refl (c : CollectorOfThresholdSignatures) : Continues c c :=
  ⟨rfl, rfl, fun _ h => h⟩

theorem hasPartialMsgFromReplica_iff {i : ReplicaId} :
    c.hasPartialMsgFromReplica i = true ↔ i ∈ c.replicasInfo.map (·.1) := lookup_isSome_iff

theorem Counted.withShare (h : Counted verify Good required valid c) (m : SignedSharePartial)
    {repId : ReplicaId} (hnew : c.hasPartialMsgFromReplica repId = false) :
    Counted verify Good required valid { c with
      replicasInfo := c.replicasInfo ++ [(repId, ⟨m, .Unknown⟩)]
      numberOfUnknownSignatures := c.numberOfUnknownSignatures + 1 } where
  base := h.base.withShare m hnew
  counter_eq := by simp [usableReplicas, h.counter_eq]
  shares := by
    intro d items hjob
    obtain ⟨hlength, hnodup, hmem⟩ := h.shares d items hjob
    refine ⟨hlength, hnodup, ?_⟩
    intro i hi
    have := hmem i hi
    simp only [usableReplicas, List.filter_append, List.map_append, List.mem_append]
    exact Or.inl this
  blamed := by
    intro r hr hinvalid
    rcases List.mem_append.1 hr with hold | hnew
    · exact h.blamed r hold hinvalid
    · rw [List.mem_singleton.1 hnew] at hinvalid
      simp at hinvalid

section

variable (h : Prompt verify Good required valid c)
include h

/-- A share is added, and a job is started as soon as there are enough. -/
theorem Prompt.addPartial (m : SignedSharePartial) (repId : ReplicaId) :
    ∃ c' added, addMsgWithPartialSignature required c m repId = .ok (c', added) ∧
      Prompt verify Good required valid c' ∧ Continues c c' ∧
      (∀ j, c.job = some j → c'.job = some j) ∧
      (c.combinedValidSignatureMsg = none → c.hasPartialMsgFromReplica repId = false →
        added = true ∧ c'.hasPartialMsgFromReplica repId = true) := by
  unfold addMsgWithPartialSignature
  split_ifs with hknown
  · refine ⟨c, false, rfl, h, .refl c, fun _ hj => hj, ?_⟩
    intro hnone hpart
    rw [hnone, hpart] at hknown
    simp at hknown
  obtain ⟨hnone, hpart⟩ := not_or.1 hknown
  have hvalid : c.combinedValidSignatureMsg = none := by simpa using hnone
  have hnew : c.hasPartialMsgFromReplica repId = false := by simpa using hpart
  have hcounted := h.toCounted.withShare m hnew
  rw [trySendToBkThread_eq hcounted.counter_eq.le hvalid]
  refine ⟨_, true, rfl, hcounted.send hvalid, ⟨rfl, rfl, ?_⟩, fun j hj => nextJob_keeps required hj, ?_⟩
  · intro i hi
    rw [hasPartialMsgFromReplica_iff] at hi ⊢
    rw [List.map_append]
    exact List.mem_append_left _ hi
  · rw [hasPartialMsgFromReplica_iff]
    simp

theorem Prompt.addCombined {m : SignedShareFull} (hm : Good m) :
    ∃ c' added, addMsgWithCombinedSignature required c m = .ok (c', added) ∧
      Prompt verify Good required valid c' ∧ Continues c c' ∧
      ∀ j, c.job = some j → c'.job = some j := by
  unfold addMsgWithCombinedSignature
  split_ifs with hknown
  · exact ⟨c, false, rfl, h, .refl c, fun _ hj => hj⟩
  obtain ⟨hnone, hcand⟩ := not_or.1 hknown
  have hvalid : c.combinedValidSignatureMsg = none := by simpa using hnone
  have hcounted : Counted verify Good required valid
      { c with candidateCombinedSignatureMsg := some m } :=
    { h.toCounted with base := h.base.withCandidate (by simpa using hcand) hm }
  rw [trySendToBkThread_eq hcounted.counter_eq.le hvalid]
  refine ⟨_, true, rfl, hcounted.send hvalid, ⟨rfl, rfl, fun _ hi => hi⟩, ?_⟩
  intro j hj
  exact nextJob_keeps required hj

/-- A collector that learns its target has no job yet. -/
theorem Prompt.expect (hnew : c.expectedSeqNumber = 0) {s : SeqNum} (hs : s ≠ 0) (v : ViewNum)
    (d : Digest) :
    ∃ c', setExpected required c s v d = .ok c' ∧ Prompt verify Good required valid c' ∧
      c'.expectedSeqNumber = s ∧ c'.expectedView = v ∧ c'.combinedValidSignatureMsg = none ∧
      c'.replicasInfo = c.replicasInfo := by
  have hvalid := h.base.valid_eq_none hnew
  have hcounted : Counted verify Good required valid
      { c with expectedSeqNumber := s, expectedView := v, expectedDigest := d } :=
    { h.toCounted with base := h.base.withExpected hnew s v d }
  unfold setExpected
  rw [assert_bind_of hs, assert_bind_of hnew, assert_bind_of (h.base.job_eq_none hnew),
    trySendToBkThread_eq hcounted.counter_eq.le hvalid]
  exact ⟨_, rfl, hcounted.send hvalid, rfl, rfl, hvalid, rfl⟩

end

/-! ## Results of jobs -/

theorem Counted.withoutBad (h : Counted verify Good required valid c) {d : Digest}
    {items bad : List ReplicaId} (hjob : c.job = some (.SignaturesProcessingJob d items))
    (hbad : bad.Sublist items) (hblame : ∀ i ∈ bad, valid i = false) :
    Counted verify Good required valid { c with
      job := none
      replicasInfo := markInvalid bad c.replicasInfo
      numberOfUnknownSignatures := c.numberOfUnknownSignatures - bad.length } where
  base := h.base.withoutBad bad
  counter_eq := by
    -- the blamed replicas are among the usable ones, each once
    obtain ⟨-, hnodup, hmem⟩ := h.shares d items hjob
    have hlength := length_filter_notMem (nodup_usableReplicas h.base) (hbad.nodup hnodup)
      fun i hi => hmem i (hbad.subset hi)
    rw [← h.counter_eq] at hlength
    rw [← hlength]
    exact congrArg List.length (markInvalid_usable bad c.replicasInfo).symm
  shares := nofun
  blamed := by
    intro r hr hinvalid
    obtain ⟨r₀, hr₀, rfl⟩ := List.mem_map.1 hr
    by_cases hmem : r₀.1 ∈ bad
    · rw [if_pos hmem]
      exact hblame r₀.1 hmem
    · rw [if_neg hmem] at hinvalid ⊢
      exact h.blamed r₀ hr₀ hinvalid

theorem Prompt.combiningFailed (h : Prompt verify Good required valid c) {d : Digest}
    {items bad : List ReplicaId} (hjob : c.job = some (.SignaturesProcessingJob d items))
    (hbad : bad.Sublist items) (hblame : ∀ i ∈ bad, valid i = false) :
    ∃ c', onCombiningFailed required c c.expectedSeqNumber c.expectedView bad = .ok c' ∧
      Prompt verify Good required valid c' ∧ Continues c c' := by
  have hvalid := (h.base.job_waiting _ hjob).2.1
  have hcounted := h.toCounted.withoutBad hjob hbad hblame
  unfold onCombiningFailed
  rw [checkCompletion_ok hjob hvalid, trySendToBkThread_eq hcounted.counter_eq.le hvalid]
  refine ⟨_, rfl, hcounted.send hvalid, rfl, rfl, ?_⟩
  intro i hi
  rw [hasPartialMsgFromReplica_iff] at hi ⊢
  rwa [markInvalid_keys]

/-- A complete collector has nothing to start. -/
theorem Counted.of_complete (h : Counted verify Good required valid c)
    (hsome : c.combinedValidSignatureMsg.isSome = true) : Prompt verify Good required valid c :=
  { h with idle := fun _ _ hnone => absurd hsome (by simp [hnone]) }

theorem Prompt.combiningSucceeded (h : Prompt verify Good required valid c) {j : CollectorJob}
    (hjob : c.job = some j) (myId : ReplicaId) {sig : Bytes}
    (hsig : verify c.expectedDigest sig = true)
    (hgood : Good ⟨myId, c.expectedView, c.expectedSeqNumber, sig⟩) :
    ∃ c', onCombiningSucceeded c myId c.expectedSeqNumber c.expectedView sig = .ok c' ∧
      Prompt verify Good required valid c' ∧ Continues c c' := by
  have hvalid := (h.base.job_waiting j hjob).2.1
  obtain ⟨c', hc', hinv, -⟩ := onCombiningSucceeded_spec h.base hjob myId hsig hgood
  unfold onCombiningSucceeded at hc' ⊢
  rw [checkCompletion_ok hjob hvalid] at hc' ⊢
  cases hc'
  have hcounted : Counted verify Good required valid _ :=
    ⟨hinv, h.counter_eq, nofun, h.blamed⟩
  exact ⟨_, rfl, hcounted.of_complete rfl, ⟨rfl, rfl, fun _ hi => hi⟩⟩

theorem Prompt.verified (h : Prompt verify Good required valid c) {d : Digest} {sig : Bytes}
    (hjob : c.job = some (.CombinedSigVerificationJob d sig)) :
    ∃ c', onCompletionOfCombinedSigVerification required c c.expectedSeqNumber c.expectedView
        (verify d sig) = .ok c' ∧
      Prompt verify Good required valid c' ∧ Continues c c' := by
  obtain ⟨hseq, hvalid, rfl, m, hm, rfl⟩ := h.base.job_waiting _ hjob
  have hsome : c.candidateCombinedSignatureMsg.isSome = true := by simp [hm]
  obtain ⟨c', hc', hinv, -⟩ := onCompletionOfCombinedSigVerification_spec required h.base hjob
  unfold onCompletionOfCombinedSigVerification at hc' ⊢
  rw [checkCompletion_ok hjob hvalid, assert_bind_of hsome] at hc' ⊢
  by_cases hver : verify c.expectedDigest m.signatureBody = true
  · rw [if_pos hver] at hc' ⊢
    cases hc'
    have hcounted : Counted verify Good required valid _ :=
      ⟨hinv, h.counter_eq, nofun, h.blamed⟩
    exact ⟨_, rfl, hcounted.of_complete hsome, ⟨rfl, rfl, fun _ hi => hi⟩⟩
  · rw [if_neg hver]
    have hcounted : Counted verify Good required valid
        { c with job := none, candidateCombinedSignatureMsg := none } :=
      ⟨h.base.withoutCandidate, h.counter_eq, nofun, h.blamed⟩
    rw [trySendToBkThread_eq hcounted.counter_eq.le hvalid]
    exact ⟨_, rfl, hcounted.send hvalid, ⟨rfl, rfl, fun _ hi => hi⟩⟩

end CollectorOfThresholdSignatures

/-! ## Slots -/

namespace SeqNumInfo

open CollectorOfThresholdSignatures

theorem collector_withCollector (info : SeqNumInfo) (c : CollectorOfThresholdSignatures)
    (stage stage' : Stage) :
    (info.withCollector c stage).collector stage' =
      if stage' = stage then c else info.collector stage' := by
  cases stage <;> cases stage' <;> rfl

/-- The slot of number `s` in view `v`; `valid` tells which shares are good. -/
structure Prompt (cfg : ReplicaConfig) (valid : Stage → ViewNum → SeqNum → ReplicaId → Bool)
    (v : ViewNum) (s : SeqNum) (info : SeqNumInfo) : Prop where
  collectors : ∀ stage, (info.collector stage).Prompt (cfg.verify .SlowPathCommit)
    (SignedShareFull.IsFor v s) cfg.requiredForSlowPath (valid stage v s)
  target : ∀ stage, (info.collector stage).expectedSeqNumber ≠ 0 →
    (info.collector stage).expectedSeqNumber = s ∧ (info.collector stage).expectedView = v
  /-- The prepare collector learns its target from the PrePrepare. -/
  noPrePrepare : info.prePrepareMsg = none → info.prepareSigCollector.expectedSeqNumber = 0
  /-- The commit collector learns its target with the share of the replica itself. -/
  noCommit : info.commitMsgsCollector.hasPartialMsgFromReplica cfg.myId = false →
    info.commitMsgsCollector.expectedSeqNumber = 0

variable {cfg : ReplicaConfig} {valid : Stage → ViewNum → SeqNum → ReplicaId → Bool} {v : ViewNum}
  {s : SeqNum} {info : SeqNumInfo}

theorem prompt_default : Prompt cfg valid v s default where
  collectors := by
    intro stage
    cases stage <;> exact prompt_empty
  target := by
    intro stage hne
    cases stage <;> exact absurd rfl hne
  noPrePrepare := fun _ => rfl
  noCommit := fun _ => rfl

theorem Prompt.congr (h : Prompt cfg valid v s info) {info' : SeqNumInfo}
    (hpp : info'.prePrepareMsg = info.prePrepareMsg)
    (hcollector : ∀ stage, info'.collector stage = info.collector stage) :
    Prompt cfg valid v s info' where
  collectors := by
    intro stage
    rw [hcollector]
    exact h.collectors stage
  target := by
    intro stage
    rw [hcollector]
    exact h.target stage
  noPrePrepare := by
    rw [hpp, show info'.prepareSigCollector = info.prepareSigCollector from hcollector .prepare]
    exact h.noPrePrepare
  noCommit := by
    rw [show info'.commitMsgsCollector = info.commitMsgsCollector from hcollector .commit]
    exact h.noCommit

/-- A collector that goes on with its target may replace the old one. -/
theorem Prompt.withCollector (h : Prompt cfg valid v s info) {stage : Stage}
    {c : CollectorOfThresholdSignatures}
    (hc : c.Prompt (cfg.verify .SlowPathCommit) (SignedShareFull.IsFor v s) cfg.requiredForSlowPath
      (valid stage v s))
    (hgoes : Continues (info.collector stage) c) :
    Prompt cfg valid v s (info.withCollector c stage) where
  collectors := by
    intro stage'
    rw [collector_withCollector]
    split
    next heq => exact heq ▸ hc
    next => exact h.collectors stage'
  target := by
    intro stage'
    rw [collector_withCollector]
    split
    next heq =>
      rw [hgoes.seqNumber_eq, hgoes.view_eq]
      exact h.target stage
    next => exact h.target stage'
  noPrePrepare := by
    cases stage with
    | prepare => exact fun hnone => hgoes.seqNumber_eq.trans (h.noPrePrepare hnone)
    | commit => exact h.noPrePrepare
  noCommit := by
    cases stage with
    | prepare => exact h.noCommit
    | commit =>
      intro hno
      apply hgoes.seqNumber_eq.trans
      apply h.noCommit
      rw [Bool.eq_false_iff]
      intro hyes
      exact Bool.eq_false_iff.1 hno (hgoes.keeps_shares _ hyes)

/-! ## Calls on a slot -/

/-- A job that runs for the slot before a call still runs after it. -/
def KeepsJobs (info info' : SeqNumInfo) : Prop :=
  ∀ stage j, (info.collector stage).job = some j → (info'.collector stage).job = some j

theorem KeepsJobs.refl (info : SeqNumInfo) : KeepsJobs info info := fun _ _ h => h

theorem keepsJobs_withCollector {stage : Stage} {c : CollectorOfThresholdSignatures}
    (h : ∀ j, (info.collector stage).job = some j → c.job = some j) :
    KeepsJobs info (info.withCollector c stage) := by
  intro stage' j hj
  rw [collector_withCollector]
  split
  next heq => exact h j (heq ▸ hj)
  next => exact hj

section

variable (h : Prompt cfg valid v s info)
include h

theorem Prompt.setPrePrepare (hs : s ≠ 0) {m : PrePrepareMsg} (hms : m.seqNumber = s)
    (hmv : m.viewNumber = v) (hnone : info.prePrepareMsg = none) (primary : Bool) :
    ∃ info', info.setPrePrepare cfg m primary = .ok info' ∧ Prompt cfg valid v s info' ∧
      KeepsJobs info info' := by
  subst hms hmv
  have hzero := h.noPrePrepare hnone
  have hprepare := h.collectors .prepare
  obtain ⟨c, hc, hprompt, hseq, hview, -, -⟩ := hprepare.expect hzero hs m.viewNumber
    (ReplicaConfig.prepareDigest m.viewNumber m.seqNumber m.digestOfRequests)
  unfold setPrePrepare
  rw [show info.prepareSigCollector.setExpected _ _ _ _ = _ from hc]
  refine ⟨_, rfl, ⟨?_, ?_, nofun, h.noCommit⟩, ?_⟩
  · intro stage
    cases stage with
    | prepare => exact hprompt
    | commit => exact h.collectors .commit
  · intro stage hne
    cases stage with
    | prepare => exact ⟨hseq, hview⟩
    | commit => exact h.target .commit hne
  · intro stage j hj
    cases stage with
    | prepare => exact absurd ((hprepare.base.job_eq_none hzero).symm.trans hj) (by simp)
    | commit => exact hj

theorem Prompt.addPrePrepare (hs : s ≠ 0) {m : PrePrepareMsg} (hms : m.seqNumber = s)
    (hmv : m.viewNumber = v) (hallowed : (SlotCall.addPrePrepare m).Allowed cfg info) :
    ∃ info', (SlotCall.addPrePrepare m).run cfg info = .ok info' ∧ Prompt cfg valid v s info' ∧
      KeepsJobs info info' := by
  unfold SlotCall.run SeqNumInfo.addPrePrepare
  dsimp only
  split_ifs with hsome
  · exact ⟨info, rfl, h, .refl info⟩
  obtain ⟨hprimary, hforced, hpart⟩ := Or.resolve_left hallowed hsome
  obtain ⟨info', hinfo', hprompt, hkeeps⟩ :=
    h.setPrePrepare hs hms hmv (by simpa using hsome) false
  rw [assert_bind_of hprimary, assert_bind_of hforced, assert_bind_of hpart, hinfo']
  exact ⟨info', rfl, hprompt, hkeeps⟩

theorem Prompt.addPartial (stage : Stage) (m : SignedSharePartial) :
    ∃ c added, (info.collector stage).addMsgWithPartialSignature cfg.requiredForSlowPath m
        m.senderId = .ok (c, added) ∧
      Prompt cfg valid v s (info.withCollector c stage) ∧
      KeepsJobs info (info.withCollector c stage) ∧
      ((info.collector stage).combinedValidSignatureMsg = none →
        (info.collector stage).hasPartialMsgFromReplica m.senderId = false → added = true) := by
  obtain ⟨c, added, hc, hprompt, hgoes, hjob, hadded⟩ :=
    (h.collectors stage).addPartial m m.senderId
  exact ⟨c, added, hc, h.withCollector hprompt hgoes, keepsJobs_withCollector hjob,
    fun hnone hpart => (hadded hnone hpart).1⟩

theorem Prompt.addCombined (stage : Stage) {m : SignedShareFull} (hms : m.seqNumber = s)
    (hmv : m.viewNumber = v) :
    ∃ c added, (info.collector stage).addMsgWithCombinedSignature cfg.requiredForSlowPath m =
        .ok (c, added) ∧
      Prompt cfg valid v s (info.withCollector c stage) ∧
      KeepsJobs info (info.withCollector c stage) := by
  have hm : SignedShareFull.IsFor v s m := ⟨hmv, hms⟩
  obtain ⟨c, added, hc, hprompt, hgoes, hjob⟩ := (h.collectors stage).addCombined hm
  exact ⟨c, added, hc, h.withCollector hprompt hgoes, keepsJobs_withCollector hjob⟩

theorem Prompt.addSelfPreparePartial {m : SignedSharePartial}
    (hallowed : (SlotCall.addSelfPreparePartial m).Allowed cfg info) :
    ∃ info', info.addSelfPreparePartial cfg m = .ok info' ∧ Prompt cfg valid v s info' ∧
      KeepsJobs info info' := by
  obtain ⟨hself, hforced, hpart, hpp, hprepared⟩ := hallowed
  obtain ⟨c, added, hc, hprompt, hkeeps, hadded⟩ := h.addPartial .prepare m
  have hnone : info.prepareSigCollector.combinedValidSignatureMsg = none := by
    simpa [isPrepared, hpp, hforced, isComplete] using hprepared
  have hnew : info.prepareSigCollector.hasPartialMsgFromReplica m.senderId = false := by
    rw [← hself]
    simpa [getSelfPreparePartialMsg, getPartialMsgFromReplica, hasPartialMsgFromReplica] using hpart
  have htrue := hadded hnone hnew
  unfold SeqNumInfo.addSelfPreparePartial
  rw [assert_bind_of hself, assert_bind_of hforced,
    show info.prepareSigCollector.addMsgWithPartialSignature _ _ _ = _ from hc, ok_bind]
  dsimp only
  rw [assert_bind_of htrue]
  exact ⟨_, rfl, hprompt, hkeeps⟩

/-- The replica's own commit share sets the target of the commit collector. -/
theorem Prompt.addSelfCommitPartial (hs : s ≠ 0) {m : SignedSharePartial} {d : Digest}
    (hms : m.seqNumber = s) (hmv : m.viewNumber = v)
    (hallowed : (SlotCall.addSelfCommitPartialMsgAndDigest m d).Allowed cfg info) :
    ∃ info', info.addSelfCommitPartialMsgAndDigest cfg m d = .ok info' ∧
      Prompt cfg valid v s info' ∧ KeepsJobs info info' := by
  subst hms hmv
  obtain ⟨hself, hforced, hnot⟩ := hallowed
  have hpart : info.commitMsgsCollector.hasPartialMsgFromReplica cfg.myId = false :=
    (Bool.or_eq_false_iff.1 hnot).2
  have hzero := h.noCommit hpart
  have hcommit := h.collectors .commit
  obtain ⟨c, hc, hprompt, hseq, hview, hvalid, hinfos⟩ := hcommit.expect hzero hs m.viewNumber
    (Digest.calcCombination d m.viewNumber m.seqNumber)
  obtain ⟨c', added, hc', hprompt', hgoes, hjob, hadded⟩ := hprompt.addPartial m m.senderId
  have hnew : c.hasPartialMsgFromReplica m.senderId = false := by
    rw [hasPartialMsgFromReplica, hinfos, ← hself]
    exact hpart
  obtain ⟨htrue, hhas⟩ := hadded hvalid hnew
  unfold addSelfCommitPartialMsgAndDigest
  rw [assert_bind_of hself, assert_bind_of hforced,
    show info.commitMsgsCollector.setExpected _ _ _ _ = _ from hc, ok_bind, hc', ok_bind]
  dsimp only
  rw [assert_bind_of htrue]
  refine ⟨_, rfl, ⟨?_, ?_, h.noPrePrepare, ?_⟩, ?_⟩
  · intro stage
    cases stage with
    | prepare => exact h.collectors .prepare
    | commit => exact hprompt'
  · intro stage hne
    cases stage with
    | prepare => exact h.target .prepare hne
    | commit => exact ⟨hgoes.seqNumber_eq.trans hseq, hgoes.view_eq.trans hview⟩
  · intro hno
    rw [← hself] at hhas
    exact absurd (hhas.symm.trans hno) (by simp)
  · intro stage j hj
    cases stage with
    | prepare => exact hj
    | commit => exact absurd ((hcommit.base.job_eq_none hzero).symm.trans hj) (by simp)

/-- **No assertion of a slot or of its collectors fails in a call**, and no running job is forgotten. -/
theorem Prompt.run (hs : s ≠ 0) {call : SlotCall} (hms : call.seqNumber = s)
    (hmv : call.viewNumber = v) (hallowed : call.Allowed cfg info) :
    ∃ info', call.run cfg info = .ok info' ∧ Prompt cfg valid v s info' ∧ KeepsJobs info info' := by
  cases call with
  | addPrePrepare m => exact h.addPrePrepare hs hms hmv hallowed
  | addSelfPrePrepare m =>
    obtain ⟨hprimary, hself, hforced, hnone⟩ := hallowed
    obtain ⟨info', hinfo', hprompt, hkeeps⟩ := h.setPrePrepare hs hms hmv hnone true
    unfold SlotCall.run SeqNumInfo.addSelfPrePrepare
    dsimp only
    rw [assert_bind_of hprimary, assert_bind_of hself, assert_bind_of hforced,
      assert_bind_of hnone, hinfo']
    exact ⟨info', rfl, hprompt, hkeeps⟩
  | addPreparePartial m =>
    obtain ⟨c, added, hc, hprompt, hkeeps, -⟩ := h.addPartial .prepare m
    unfold SlotCall.run SeqNumInfo.addPreparePartial
    dsimp only
    rw [assert_bind_of hallowed.1, assert_bind_of hallowed.2,
      show info.prepareSigCollector.addMsgWithPartialSignature _ _ _ = _ from hc]
    exact ⟨_, rfl, hprompt, hkeeps⟩
  | addSelfPreparePartial m => exact h.addSelfPreparePartial hallowed
  | addPrepareFull m =>
    obtain ⟨c, added, hc, hprompt, hkeeps⟩ := h.addCombined .prepare hms hmv
    unfold SlotCall.run SeqNumInfo.addPrepareFull
    dsimp only
    rw [assert_bind_of hallowed.1, assert_bind_of hallowed.2,
      show info.prepareSigCollector.addMsgWithCombinedSignature _ _ = _ from hc]
    exact ⟨_, rfl, hprompt, hkeeps⟩
  | addCommitPartial m =>
    obtain ⟨c, added, hc, hprompt, hkeeps, -⟩ := h.addPartial .commit m
    unfold SlotCall.run SeqNumInfo.addCommitPartial
    dsimp only
    rw [assert_bind_of hallowed.1, assert_bind_of hallowed.2,
      show info.commitMsgsCollector.addMsgWithPartialSignature _ _ _ = _ from hc]
    exact ⟨_, rfl, hprompt, hkeeps⟩
  | addSelfCommitPartialMsgAndDigest m d => exact h.addSelfCommitPartial hs hms hmv hallowed
  | addCommitFull m =>
    obtain ⟨c, added, hc, hprompt, hkeeps⟩ := h.addCombined .commit hms hmv
    unfold SlotCall.run SeqNumInfo.addCommitFull
    dsimp only
    rw [assert_bind_of hallowed.1, assert_bind_of hallowed.2,
      show info.commitMsgsCollector.addMsgWithCombinedSignature _ _ = _ from hc]
    exact ⟨_, rfl, hprompt, hkeeps⟩

/-- **No assertion fails when the result of the running job is delivered.** -/
theorem Prompt.complete {J : BackgroundJob} {result : JobResult} (hJs : J.seqNumber = s)
    (hJv : J.view = v) (hjob : (info.collector J.stage).job = some J.job)
    (hpossible : J.Possible cfg result)
    (hblame : ∀ bad, result = .combiningFailed bad → ∀ i ∈ bad, valid J.stage v s i = false) :
    ∃ c, J.complete cfg (info.collector J.stage) result = .ok c ∧
      Prompt cfg valid v s (info.withCollector c J.stage) := by
  have hc := h.collectors J.stage
  obtain ⟨hne, -, hfor⟩ := hc.base.job_waiting J.job hjob
  obtain ⟨hseq, hview⟩ := h.target J.stage hne
  unfold BackgroundJob.complete
  unfold BackgroundJob.Possible at hpossible
  rw [hJs.trans hseq.symm, hJv.trans hview.symm]
  cases hJ : J.job with
  | SignaturesProcessingJob digest items =>
    rw [hJ] at hjob hfor hpossible
    obtain rfl : digest = _ := hfor
    cases result with
    | combiningFailed bad =>
      obtain ⟨c, hok, hprompt, hgoes⟩ := hc.combiningFailed hjob hpossible (hblame bad rfl)
      exact ⟨c, hok, h.withCollector hprompt hgoes⟩
    | combiningSucceeded sig =>
      obtain ⟨c, hok, hprompt, hgoes⟩ :=
        hc.combiningSucceeded hjob cfg.myId hpossible ⟨hview, hseq⟩
      exact ⟨c, hok, h.withCollector hprompt hgoes⟩
    | verified => exact absurd hpossible id
  | CombinedSigVerificationJob digest sig =>
    rw [hJ] at hjob hpossible
    cases result with
    | combiningFailed bad | combiningSucceeded sig => exact absurd hpossible id
    | verified =>
      obtain ⟨c, hok, hprompt, hgoes⟩ := hc.verified hjob
      exact ⟨c, hok, h.withCollector hprompt hgoes⟩

end

end SeqNumInfo

end ConcordBft
