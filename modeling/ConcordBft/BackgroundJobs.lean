import ConcordBft.SeqNumInfo
import ConcordBft.SequenceWithActiveWindow

set_option autoImplicit false

/-! # Background jobs and the collectors that wait for them (`SeqNumInfo.cpp`, `ReplicaImp.cpp`)

A job runs in a thread pool, and its result is queued as an internal message. When the result is
handled, the collector that started the job may have been reset, because the window has moved or the
view has changed, and its slot may belong to another number. `ReplicaImp` therefore drops results of
other views, of numbers outside of the window, and all results while the replica is collecting state.

`SlowPath` is the part of a replica that its prepare and commit collectors depend on, with the jobs
whose result was not handled yet. Its events are the calls that a replica makes on its slots, in any
order that the checks of `SeqNumInfo` allow; fields of a slot that the collectors do not depend on may
change at any time, and so may the window, the view and the state transfer. -/

namespace ConcordBft

open Checked

/-- The two collectors of a slot. -/
inductive Stage where
  | prepare
  | commit
deriving DecidableEq, Repr

namespace SeqNumInfo

/-- The collector of a stage. -/
def collector (info : SeqNumInfo) : Stage → CollectorOfThresholdSignatures
  | .prepare => info.prepareSigCollector
  | .commit => info.commitMsgsCollector

/-- Replaces the collector of a stage. -/
def withCollector (info : SeqNumInfo) (c : CollectorOfThresholdSignatures) : Stage → SeqNumInfo
  | .prepare => { info with prepareSigCollector := c }
  | .commit => { info with commitMsgsCollector := c }

end SeqNumInfo

/-! ## Calls on a slot -/

/-- The calls that add something to a slot. -/
inductive SlotCall where
  | addPrePrepare (m : PrePrepareMsg)
  | addSelfPrePrepare (m : PrePrepareMsg)
  | addPreparePartial (m : SignedSharePartial)
  | addSelfPreparePartial (m : SignedSharePartial)
  | addPrepareFull (m : SignedShareFull)
  | addCommitPartial (m : SignedSharePartial)
  | addSelfCommitPartialMsgAndDigest (m : SignedSharePartial) (commitDigest : Digest)
  | addCommitFull (m : SignedShareFull)
deriving DecidableEq, Repr

namespace SlotCall

/-- The number that a call is for. -/
def seqNumber : SlotCall → SeqNum
  | .addPrePrepare m | .addSelfPrePrepare m => m.seqNumber
  | .addPreparePartial m | .addSelfPreparePartial m | .addCommitPartial m => m.seqNumber
  | .addSelfCommitPartialMsgAndDigest m _ => m.seqNumber
  | .addPrepareFull m | .addCommitFull m => m.seqNumber

/-- The view that a call is for. -/
def viewNumber : SlotCall → ViewNum
  | .addPrePrepare m | .addSelfPrePrepare m => m.viewNumber
  | .addPreparePartial m | .addSelfPreparePartial m | .addCommitPartial m => m.viewNumber
  | .addSelfCommitPartialMsgAndDigest m _ => m.viewNumber
  | .addPrepareFull m | .addCommitFull m => m.viewNumber

variable (cfg : ReplicaConfig) (info : SeqNumInfo)

/-- A call on its slot. -/
def run : SlotCall → Except Failure SeqNumInfo
  | .addPrePrepare m => do pure (← info.addPrePrepare cfg m).1
  | .addSelfPrePrepare m => info.addSelfPrePrepare cfg m
  | .addPreparePartial m => do pure (← info.addPreparePartial cfg m).1
  | .addSelfPreparePartial m => info.addSelfPreparePartial cfg m
  | .addPrepareFull m => do pure (← info.addPrepareFull cfg m).1
  | .addCommitPartial m => do pure (← info.addCommitPartial cfg m).1
  | .addSelfCommitPartialMsgAndDigest m d => info.addSelfCommitPartialMsgAndDigest cfg m d
  | .addCommitFull m => do pure (← info.addCommitFull cfg m).1

/-- The checks of `SeqNumInfo` itself, and those with which `sendPreparePartial` and
    `sendCommitPartial` start. -/
def Allowed : SlotCall → Prop
  | .addPrePrepare _ => info.prePrepareMsg.isSome = true ∨
      info.primary = false ∧ info.forcedCompleted = false ∧
        info.prepareSigCollector.hasPartialMsgFromReplica cfg.myId = false
  | .addSelfPrePrepare m => info.primary = false ∧ cfg.myId = cfg.primaryOfView m.viewNumber ∧
      info.forcedCompleted = false ∧ info.prePrepareMsg = none
  | .addPreparePartial m | .addCommitPartial m =>
    cfg.myId ≠ m.senderId ∧ info.forcedCompleted = false
  | .addPrepareFull m | .addCommitFull m => cfg.myId ≠ m.senderId ∧ info.forcedCompleted = false
  | .addSelfPreparePartial m => cfg.myId = m.senderId ∧ info.forcedCompleted = false ∧
      info.getSelfPreparePartialMsg cfg = none ∧ info.prePrepareMsg.isSome = true ∧
      info.isPrepared = false
  | .addSelfCommitPartialMsgAndDigest m _ => cfg.myId = m.senderId ∧ info.forcedCompleted = false ∧
      info.committedOrHasCommitPartialFromReplica cfg.myId = false

instance : (c : SlotCall) → Decidable (c.Allowed cfg info)
  | .addPrePrepare _ => inferInstanceAs (Decidable (_ ∨ _ ∧ _ ∧ _))
  | .addSelfPrePrepare _ => inferInstanceAs (Decidable (_ ∧ _ ∧ _ ∧ _))
  | .addPreparePartial _ | .addCommitPartial _ => inferInstanceAs (Decidable (_ ∧ _))
  | .addPrepareFull _ | .addCommitFull _ => inferInstanceAs (Decidable (_ ∧ _))
  | .addSelfPreparePartial _ => inferInstanceAs (Decidable (_ ∧ _ ∧ _ ∧ _ ∧ _))
  | .addSelfCommitPartialMsgAndDigest _ _ => inferInstanceAs (Decidable (_ ∧ _ ∧ _))

end SlotCall

/-! ## Jobs -/

/-- A job that is running, or whose result is queued. -/
structure BackgroundJob where
  stage : Stage
  seqNumber : SeqNum
  view : ViewNum
  job : CollectorJob
deriving DecidableEq, Repr

namespace BackgroundJob

/-- What a job can return: combining yields a signature that verifies, or blames some of the replicas
    whose shares it was given. -/
def Possible (cfg : ReplicaConfig) (J : BackgroundJob) (result : SeqNumInfo.JobResult) : Prop :=
  match J.job, result with
  | .SignaturesProcessingJob _ sigDataItems, .combiningFailed bad => bad.Sublist sigDataItems
  | .SignaturesProcessingJob digest _, .combiningSucceeded sig =>
    cfg.verify .SlowPathCommit digest sig = true
  | .CombinedSigVerificationJob _ _, .verified => True
  | _, _ => False

instance (cfg : ReplicaConfig) : (J : BackgroundJob) → (result : SeqNumInfo.JobResult) →
    Decidable (J.Possible cfg result)
  | ⟨_, _, _, .SignaturesProcessingJob _ sigDataItems⟩, .combiningFailed bad =>
    inferInstanceAs (Decidable (bad.Sublist sigDataItems))
  | ⟨_, _, _, .SignaturesProcessingJob _ _⟩, .combiningSucceeded _ =>
    inferInstanceAs (Decidable (_ = true))
  | ⟨_, _, _, .SignaturesProcessingJob _ _⟩, .verified => .isFalse id
  | ⟨_, _, _, .CombinedSigVerificationJob _ _⟩, .combiningFailed _ => .isFalse id
  | ⟨_, _, _, .CombinedSigVerificationJob _ _⟩, .combiningSucceeded _ => .isFalse id
  | ⟨_, _, _, .CombinedSigVerificationJob _ _⟩, .verified => .isTrue trivial

/-- The three functions of the collector for the result of a job. -/
def complete (cfg : ReplicaConfig) (J : BackgroundJob) (c : CollectorOfThresholdSignatures)
    (result : SeqNumInfo.JobResult) : Except Failure CollectorOfThresholdSignatures :=
  match J.job, result with
  | .SignaturesProcessingJob _ _, .combiningFailed bad =>
    c.onCombiningFailed cfg.requiredForSlowPath J.seqNumber J.view bad
  | .SignaturesProcessingJob _ _, .combiningSucceeded sig =>
    c.onCombiningSucceeded cfg.myId J.seqNumber J.view sig
  | .CombinedSigVerificationJob digest sig, .verified =>
    c.onCompletionOfCombinedSigVerification cfg.requiredForSlowPath J.seqNumber J.view
      (cfg.verify .SlowPathCommit digest sig)
  | _, _ => pure c

end BackgroundJob

/-- The job of a collector, with the number and the view that it is started for. -/
def CollectorOfThresholdSignatures.runningJob (c : CollectorOfThresholdSignatures) (stage : Stage) :
    Option BackgroundJob :=
  c.job.map fun j => ⟨stage, c.expectedSeqNumber, c.expectedView, j⟩

/-- What a call on a slot has given to the thread pool: a collector starts a job only if none is
    running. -/
def startedJobs (info info' : SeqNumInfo) : List BackgroundJob :=
  [Stage.prepare, Stage.commit].filterMap fun stage =>
    if (info.collector stage).job.isSome then none else (info'.collector stage).runningJob stage

/-! ## Events -/

/-- The slots of a view, with jobs and results under way. -/
structure SlowPath where
  curView : ViewNum := 0
  currentViewIsActive : Bool := true
  isCollectingState : Bool := false
  mainLog : SequenceWithActiveWindow 300 1 SeqNumInfo := .resetAll 1
  jobs : List BackgroundJob := []

/-- What happens to the slots. -/
inductive SlowPathEvent where
  | call (c : SlotCall)
  /-- Fields that the collectors do not depend on: the fast path, `forceComplete`, `startSlowPath`. -/
  | update (s : SeqNum) (info : SeqNumInfo)
  | advanceActiveWindow (newFirst : SeqNum)
  | MoveToHigherView (nextView : ViewNum)
  | enterView
  | startCollectingState
  | onTransferringComplete
  /-- The result of the job at an index is handled. -/
  | handleResult (i : ℕ) (result : SeqNumInfo.JobResult)

namespace SlowPath

variable (cfg : ReplicaConfig) (st : SlowPath)

/-- The checks that every handler of a result starts with. -/
def jobIsRelevant (v : ViewNum) (s : SeqNum) : Bool :=
  !st.isCollectingState && st.currentViewIsActive && st.curView == v &&
    st.mainLog.insideActiveWindow s

/-- `onPrepareCombinedSigFailed`, `onPrepareCombinedSigSucceeded`, `onPrepareVerifyCombinedSigResult`
    and the same for commits. -/
def handleResult (J : BackgroundJob) (result : SeqNumInfo.JobResult) :
    Except Failure SlowPath :=
  if st.jobIsRelevant J.view J.seqNumber = false then pure st
  else do
    let info ← st.mainLog.get J.seqNumber
    let c ← J.complete cfg (info.collector J.stage) result
    pure { st with
      mainLog := st.mainLog.set J.seqNumber (info.withCollector c J.stage)
      jobs := st.jobs ++ (c.runningJob J.stage).toList }

/-- One event. -/
def step : SlowPathEvent → Except Failure SlowPath
  | .call c => do
      let info ← st.mainLog.get c.seqNumber
      let info' ← c.run cfg info
      pure { st with
        mainLog := st.mainLog.set c.seqNumber info'
        jobs := st.jobs ++ startedJobs info info' }
  | .update s info => pure { st with mainLog := st.mainLog.set s info }
  | .advanceActiveWindow newFirst => do
      pure { st with mainLog := ← st.mainLog.advanceActiveWindow newFirst }
  | .MoveToHigherView nextView => pure { st with
      curView := nextView
      currentViewIsActive := false
      mainLog := if st.currentViewIsActive then .resetAll st.mainLog.beginningOfActiveWindow
        else st.mainLog }
  | .enterView => pure { st with currentViewIsActive := true }
  | .startCollectingState => pure { st with isCollectingState := true }
  | .onTransferringComplete => pure { st with isCollectingState := false }
  | .handleResult i result =>
    match st.jobs[i]? with
    | none => pure st
    | some J => { st with jobs := st.jobs.eraseIdx i }.handleResult cfg J result

/-- What a replica checks before an event, and what the thread pool owes. -/
def Allowed : SlowPathEvent → Prop
  | .call c => st.currentViewIsActive = true ∧ c.viewNumber = st.curView ∧
      st.mainLog.Holds c.seqNumber ∧ c.Allowed cfg (st.mainLog.lookup c.seqNumber)
  | .update s info => st.mainLog.Holds s ∧
      info.prePrepareMsg = (st.mainLog.lookup s).prePrepareMsg ∧
      info.prepareSigCollector = (st.mainLog.lookup s).prepareSigCollector ∧
      info.commitMsgsCollector = (st.mainLog.lookup s).commitMsgsCollector
  | .advanceActiveWindow newFirst => st.mainLog.beginningOfActiveWindow ≤ newFirst
  | .MoveToHigherView nextView => st.curView < nextView
  | .enterView | .startCollectingState | .onTransferringComplete => True
  | .handleResult i result => ∃ J ∈ st.jobs[i]?, J.Possible cfg result

instance : (ev : SlowPathEvent) → Decidable (st.Allowed cfg ev)
  | .call _ => inferInstanceAs (Decidable (_ ∧ _ ∧ _ ∧ _))
  | .update _ _ => inferInstanceAs (Decidable (_ ∧ _ ∧ _ ∧ _))
  | .advanceActiveWindow _ => inferInstanceAs (Decidable (_ ≤ _))
  | .MoveToHigherView _ => inferInstanceAs (Decidable (_ < _))
  | .enterView | .startCollectingState | .onTransferringComplete => inferInstanceAs (Decidable True)
  | .handleResult _ _ => inferInstanceAs (Decidable (∃ J ∈ _, BackgroundJob.Possible cfg J _))

end SlowPath

end ConcordBft
