import ConcordBft.ReplicaImp.Sending

set_option autoImplicit false

/-! # Stable points, checkpoints and execution

`executeReadWriteRequests` executes committed numbers in order. At a checkpoint the replica adds its
own checkpoint message, and a complete certificate moves the stable point and the windows; an active
primary then proposes again. -/

namespace ConcordBft.ReplicaImp

open Checked

variable {App : Type} (cfg : ReplicaConfig) (handler : RequestsHandler App) (env : Env)

/-! ## Stable points -/

variable (r : ReplicaImp App) (newStableSeqNum : SeqNum)

/-- The counters that never stay below the stable point, and the windows. -/
def advanceStable : Except Failure (ReplicaImp App) := do
  let mainLog ← r.mainLog.advanceActiveWindow (newStableSeqNum + 1)
  let checkpointsLog ← r.checkpointsLog.advanceActiveWindow newStableSeqNum
  pure { r with
    lastStableSeqNum := newStableSeqNum
    strictLowerBoundOfSeqNums := max r.strictLowerBoundOfSeqNums newStableSeqNum
    primaryLastUsedSeqNum := max r.primaryLastUsedSeqNum newStableSeqNum
    mainLog := mainLog
    checkpointsLog := checkpointsLog }

def onSeqNumIsStableWithoutRefCheckpoint : Except Failure (ReplicaImp App) := do
  Assert (newStableSeqNum % checkpointWindowSize = 0)
  if newStableSeqNum ≤ r.lastStableSeqNum then pure r else r.advanceStable newStableSeqNum

/-- The jump of `lastExecutedSeqNum` to a stable point above it. -/
def catchUpWithStable : Except Failure (ReplicaImp App) :=
  if r.lastExecutedSeqNum < newStableSeqNum then do
    let cm ← r.execution.clientsManager.loadInfoFromReservedPages cfg
    pure { r with
      lastExecutedSeqNum := newStableSeqNum
      execution := { r.execution with clientsManager := cm } }
  else pure r

/-- The own checkpoint message of a stable checkpoint, marked as stable, and a complete
    certificate. -/
def stableCheckpoint (info : CheckpointInfo) (s : SeqNum) : CheckpointInfo :=
  let info :=
    match info.selfCheckpointMsg cfg.toReplicasInfo cfg.myId with
    | none => info.addCheckpointMsg cfg.toReplicasInfo cfg.myId
        ⟨cfg.myId, s, env.digestOfCheckpoint s, true⟩ cfg.myId
    | some _ => info.setStateAsStable cfg.myId
  if info.isCheckpointCertificateComplete then info
  else info.tryToMarkCheckpointCertificateCompleted cfg.toReplicasInfo cfg.myId

/-- The steps after the windows have moved: the certificate of the stable checkpoint is completed,
    and an active primary proposes again. -/
def onStablePointMoved : Except Failure (ReplicaImp App) := do
  let info ← r.checkpointsLog.get r.lastStableSeqNum
  let info := stableCheckpoint cfg env info r.lastStableSeqNum
  Assert (info.isCheckpointCertificateComplete = true)
  let r := r.setCheckpoint r.lastStableSeqNum info
  if r.currentViewIsActive = true ∧ r.isCollectingState = false ∧ r.isCurrentPrimary cfg = true then
    r.tryToSendPrePrepareMsg cfg env false
  else pure r

def onSeqNumIsStable : Except Failure (ReplicaImp App) := do
  Assert (newStableSeqNum % checkpointWindowSize = 0)
  if newStableSeqNum ≤ r.lastStableSeqNum then pure r
  else do
    let r ← r.catchUpWithStable cfg newStableSeqNum
    let r ← r.advanceStable newStableSeqNum
    r.onStablePointMoved cfg env

/-! ## Checkpoints -/

/-- Does the slot of the last executed number have a full proof? -/
def executedByFullProof : Except Failure Bool :=
  if r.mainLog.insideActiveWindow r.lastExecutedSeqNum then do
    let seqNumInfo ← r.mainLog.get r.lastExecutedSeqNum
    pure seqNumInfo.partialProofs.hasFullProof
  else pure false

/-- The last steps of `sendCheckpointIfNeeded`, when the checkpoint is due. -/
def sendOrMarkCheckpoint (lastCheckpointNumber : SeqNum) (info : CheckpointInfo)
    (checkpointMessage : CheckpointMsg) : Except Failure (ReplicaImp App) := do
  let executedByFullProof ← r.executedByFullProof
  if executedByFullProof then do
    let info := info.tryToMarkCheckpointCertificateCompleted cfg.toReplicasInfo cfg.myId
    let r := (r.setCheckpoint lastCheckpointNumber info).record
      (.markCheckpoint lastCheckpointNumber)
    Assert (info.isCheckpointCertificateComplete = true)
    let r ← r.onSeqNumIsStable cfg env lastCheckpointNumber
    let info := r.checkpointsLog.lookup lastCheckpointNumber
    pure (r.setCheckpoint lastCheckpointNumber info.setCheckpointSentAllOrApproved)
  else
    let r := r.setCheckpoint lastCheckpointNumber info.setCheckpointSentAllOrApproved
    pure (r.sendToAllOtherReplicas (.checkpoint checkpointMessage))

/-- Sends the own last checkpoint, once. -/
def sendCheckpointIfNeeded : Except Failure (ReplicaImp App) :=
  let lastCheckpointNumber := r.lastExecutedSeqNum / checkpointWindowSize * checkpointWindowSize
  if r.isCollectingState = true ∨ r.currentViewIsActive = false ∨ lastCheckpointNumber = 0 then
    pure r
  else do
    Checked.require Failure.outsideActiveWindow
      (r.checkpointsLog.insideActiveWindow lastCheckpointNumber = true)
    let info ← r.checkpointsLog.get lastCheckpointNumber
    match info.selfCheckpointMsg cfg.toReplicasInfo cfg.myId with
    | none => pure r
    | some checkpointMessage =>
      if info.checkpointSentAllOrApproved then pure r
      else if env.timeToSendCheckpoint r.lastExecutedSeqNum then
        let r := r.setCheckpoint lastCheckpointNumber info.setCheckpointSentAllOrApproved
        pure (r.sendToAllOtherReplicas (.checkpoint checkpointMessage))
      else if r.lastExecutedSeqNum < lastCheckpointNumber + MaxConcurrentFastPaths then pure r
      else r.sendOrMarkCheckpoint cfg env lastCheckpointNumber info checkpointMessage

/-- The own checkpoint message after the execution of a checkpoint. -/
def addOwnCheckpoint : Except Failure (ReplicaImp App) := do
  let s := r.lastExecutedSeqNum
  let info ← r.checkpointsLog.get s
  let info := info.addCheckpointMsg cfg.toReplicasInfo cfg.myId
    ⟨cfg.myId, s, env.digestOfCheckpoint s, false⟩ cfg.myId
  let r := r.setCheckpoint s info
  let r ← (if info.isCheckpointCertificateComplete then r.onSeqNumIsStable cfg env s else pure r)
  -- `setSelfExecutionTime` through the reference that was taken before
  let info := r.checkpointsLog.lookup s
  Assert (info.executed = false)
  pure (r.setCheckpoint s { info with executed := true })

/-! ## Execution -/

/-- A read-only request does not change the application. -/
def executeReadOnlyRequest (request : ClientRequestMsg) : Except Failure (ReplicaImp App) := do
  Assert (request.isReadOnly = true)
  Assert (r.isCollectingState = false)
  let clientId := request.clientProxyId
  let result := handler.execute r.execution.app ⟨clientId, r.lastExecutedSeqNum, true,
    request.request, maxReplyMessageSize - sizeOfClientReplyMsgHeader, [], 0⟩
  if result.error = 0 ∧ 0 < result.outActualReplySize then
    pure (r.send (.clientReply ⟨r.currentPrimary cfg, request.requestSeqNum,
      result.outReply.take result.outActualReplySize⟩) clientId)
  else pure r

/-- The replies are sent, and the number counts as executed. -/
def finishExecution (execution : Execution App) (replies : List (NodeIdType × ClientReplyMsg)) :
    ReplicaImp App :=
  let r := replies.foldl (fun r reply => r.send (.clientReply reply.2) reply.1) r
  { r with execution := execution, lastExecutedSeqNum := r.lastExecutedSeqNum + 1 }

/-- The checkpoints after the execution of a number. -/
def checkpointAfterExecution : Except Failure (ReplicaImp App) := do
  -- the time of the slot is read
  let _ ← r.mainLog.get r.lastExecutedSeqNum
  let r ← (if r.lastExecutedSeqNum % checkpointWindowSize = 0 then r.addOwnCheckpoint cfg env
    else pure r)
  r.sendCheckpointIfNeeded cfg env

/-- The loop over the requests reads the full proof of the slot of `lastExecutedSeqNum + 1`. -/
def executeRequestsInPrePrepareMsg (ppMsg : PrePrepareMsg) : Except Failure (ReplicaImp App) := do
  Assert (r.isCollectingState = false ∧ r.currentViewIsActive = true)
  Assert (ppMsg.viewNumber = r.curView)
  let s := r.lastExecutedSeqNum + 1
  let info ← r.mainLog.get s
  let thresholSignature := info.partialProofs.getFullProof.map (·.thresholSignature)
  let (execution, replies) ← r.execution.executeRequests cfg handler s (r.currentPrimary cfg)
    thresholSignature ppMsg.requests
  ((r.finishExecution execution replies).record
    (.execute s ppMsg.requests thresholSignature)).checkpointAfterExecution cfg env

/-- The PrePrepare of a slot that can be executed. -/
def readyPrePrepare (info : SeqNumInfo) : Option PrePrepareMsg :=
  if info.isCommitted then info.getPrePrepareMsg else none

/-- The while loop of `executeReadWriteRequests`; no run needs more rounds than the window has
    numbers. -/
def executeLoop (requestMissingInfo : Bool) :
    ℕ → ReplicaImp App → Except Failure (ReplicaImp App)
  | 0, _ => .error .notModelled
  | rounds + 1, r =>
    if r.lastExecutedSeqNum < r.lastStableSeqNum + kWorkWindowSize then do
      let info ← r.mainLog.get (r.lastExecutedSeqNum + 1)
      match readyPrePrepare info with
      | none =>
        if requestMissingInfo then
          r.tryToSendReqMissingDataMsg cfg env (r.lastExecutedSeqNum + 1) false none
        else pure r
      | some prePrepareMsg => do
          Assert (prePrepareMsg.seqNumber = r.lastExecutedSeqNum + 1)
          Assert (prePrepareMsg.viewNumber = r.curView)
          let r ← r.executeRequestsInPrePrepareMsg cfg handler env prePrepareMsg
          executeLoop requestMissingInfo rounds r
    else pure r

def executeReadWriteRequests (requestMissingInfo : Bool) : Except Failure (ReplicaImp App) := do
  Assert (r.isCollectingState = false ∧ r.currentViewIsActive = true)
  Assert (r.lastStableSeqNum ≤ r.lastExecutedSeqNum)
  let r ← executeLoop cfg handler env requestMissingInfo (kWorkWindowSize.toNat + 1) r
  if r.isCurrentPrimary cfg = true ∧ 0 < r.requestsQueueOfPrimary.length then
    r.tryToSendPrePrepareMsg cfg env true
  else pure r

/-- The slot is committed by its full proof. -/
def commitFullCommitProof (seqNum : SeqNum) : Except Failure (ReplicaImp App) := do
  let info ← (r.mainLog.lookup seqNum).forceComplete
  let r := r.setSlot seqNum info
  r.executeReadWriteRequests cfg handler env
    (decide (r.lastExecutedSeqNum + cfg.maxConcurrentAgreementsByPrimary < seqNum))

end ConcordBft.ReplicaImp
