import ConcordBft.ReplicaImp.ViewChange

set_option autoImplicit false

/-! # The event handlers of a replica

The handlers of messages, of the results of background jobs and of timers, and `step`, which takes
one event. Messages from the network are checked by `ToActualMsgType` first, and all of them are
ignored while the replica collects state. -/

namespace ConcordBft.ReplicaImp

open Checked

variable {App : Type} (cfg : ReplicaConfig) (handler : RequestsHandler App) (env : Env)

/-! ## Requests and PrePrepares -/

variable (r : ReplicaImp App)

def onClientRequestMsg (senderId : NodeIdType) (m : ClientRequestMsg) :
    Except Failure (ReplicaImp App) :=
  let clientId := m.clientProxyId
  let cm := r.execution.clientsManager
  if cfg.isValidClient clientId = false ∨
      (cfg.isIdOfReplica senderId = true ∧ r.isCurrentPrimary cfg = false) then pure r
  else if m.isReadOnly then r.executeReadOnlyRequest cfg handler m
  else if r.currentViewIsActive = false then pure r
  else
    let seqNumberOfLastReply := cm.seqNumberOfLastReplyToClient clientId
    if seqNumberOfLastReply < m.requestSeqNum then
      if cm.noPendingAndRequestCanBecomePending clientId m.requestSeqNum then
        if r.isCurrentPrimary cfg then
          if r.requestsQueueOfPrimary.length < 700 then
            tryToSendPrePrepareMsg cfg env
              { r with requestsQueueOfPrimary := r.requestsQueueOfPrimary ++ [m] } true
          else pure r
        else do
          let cm ← cm.addPendingRequest clientId m.requestSeqNum
          let r := { r with execution := { r.execution with clientsManager := cm } }
          pure (r.send (.clientRequest cfg.myId m) (r.currentPrimary cfg))
      else pure r
    else if seqNumberOfLastReply = m.requestSeqNum then do
      let repMsg ← cm.allocateMsgWithLatestReply cfg clientId (r.currentPrimary cfg)
      pure (r.send (.clientReply repMsg) clientId)
    else pure r

/-- A PrePrepare of the primary is added to its slot, and the replica votes for it. -/
def acceptPrePrepare (msg : PrePrepareMsg) : Except Failure (ReplicaImp App) := do
  let s := msg.seqNumber
  let info ← r.mainLog.get s
  let (info, added) ← info.addPrePrepare cfg msg
  if added = false then pure r
  else
    let r := (r.setSlot s info).record (.accept r.curView s msg.digestOfRequests)
    if msg.firstPath ≠ .SLOW ∧ info.slowPathStarted = false then r.sendPartialProof cfg s
    else (r.setSlot s info.startSlowPath).sendPreparePartial cfg s

def onPrePrepareMsg (msg : PrePrepareMsg) : Except Failure (ReplicaImp App) :=
  if r.currentViewIsActive = false ∧ r.viewsManager.waitingForMsgs = true ∧
      r.lastStableSeqNum < msg.seqNumber then
    r.onMissingPrePrepare cfg env msg
  else do
    let (r, relevant) ← r.relevantMsgForActiveView cfg env msg.viewNumber msg.seqNumber
    if relevant = true ∧ msg.senderId = r.currentPrimary cfg then r.acceptPrePrepare cfg msg
    else pure r

/-! ## The slow path -/

/-- The loop of `tryToStartSlowPaths`. -/
def startSlowPaths : List SeqNum → ReplicaImp App → Except Failure (ReplicaImp App)
  | [], r => pure r
  | i :: rest, r => do
      let info ← r.mainLog.get i
      if info.partialProofs.hasFullProof = true ∨ info.slowPathStarted = true ∨
          info.partialProofs.getSelfPartialCommitProof = none ∨ info.hasPrePrepareMsg = false then
        startSlowPaths rest r
      else if env.timeToStartSlowPath i = false then pure r
      else do
        let r := (r.setSlot i info.startSlowPath).sendToAllOtherReplicas
          (.startSlowCommit ⟨cfg.myId, r.curView, i⟩)
        let r ← r.sendPreparePartial cfg i
        startSlowPaths rest r

def tryToStartSlowPaths : Except Failure (ReplicaImp App) :=
  if r.isCurrentPrimary cfg = false ∨ r.isCollectingState = true ∨ r.currentViewIsActive = false then
    pure r
  else
    let minSeqNum := r.lastExecutedSeqNum + 1
    if r.lastStableSeqNum + kWorkWindowSize < minSeqNum then pure r
    else do
      let maxSeqNum := r.primaryLastUsedSeqNum
      Assert (maxSeqNum ≤ r.lastStableSeqNum + kWorkWindowSize)
      Checked.require Failure.primaryBehindExecution (minSeqNum ≤ maxSeqNum + 1)
      if maxSeqNum < minSeqNum then pure r
      else do
        let r ← r.sendCheckpointIfNeeded cfg env
        r.startSlowPaths cfg env (seqNums minSeqNum maxSeqNum)

def onStartSlowCommitMsg (msg : StartSlowCommitMsg) : Except Failure (ReplicaImp App) := do
  let s := msg.seqNumber
  let (r, relevant) ← r.relevantMsgForActiveView cfg env msg.viewNumber s
  if relevant = false then pure r
  else do
    let info ← r.mainLog.get s
    if info.slowPathStarted = true ∨ info.isPrepared = true then pure r
    else
      let r := r.setSlot s info.startSlowPath
      if info.hasPrePrepareMsg = false then r.tryToSendReqMissingDataMsg cfg env s false none
      else r.sendPreparePartial cfg s

/-- The best evidence that a slot has: `fcp`, `commitFull` or `preFull`. -/
def evidence (info : SeqNumInfo) : Option Msg :=
  (info.partialProofs.getFullProof.map .fullCommitProof).or
    ((info.getValidCommitFullMsg.map .commitFull).or (info.getValidPrepareFullMsg.map .prepareFull))

/-- `fcp` or `commitFull` -/
def commitEvidence (info : SeqNumInfo) : Option Msg :=
  (info.partialProofs.getFullProof.map .fullCommitProof).or
    (info.getValidCommitFullMsg.map .commitFull)

/-- A prepare share. -/
def onPreparePartialMsg (msg : SignedSharePartial) : Except Failure (ReplicaImp App) := do
  let s := msg.seqNumber
  let (r, relevant) ← r.relevantMsgForActiveView cfg env msg.viewNumber s
  if relevant = false then pure r
  else do
    Assert (r.isCurrentPrimary cfg = true)
    let info ← r.mainLog.get s
    match evidence info with
    | some m => pure (r.send m msg.senderId)
    | none => do
        let (info, _) ← info.addPreparePartial cfg msg
        pure (r.setSlot s info)

/-- A commit share. -/
def onCommitPartialMsg (msg : SignedSharePartial) : Except Failure (ReplicaImp App) := do
  let s := msg.seqNumber
  let (r, relevant) ← r.relevantMsgForActiveView cfg env msg.viewNumber s
  if relevant = false then pure r
  else do
    Assert (r.isCurrentPrimary cfg = true)
    let info ← r.mainLog.get s
    match commitEvidence info with
    | some m => pure (r.send m msg.senderId)
    | none => do
        let (info, _) ← info.addCommitPartial cfg msg
        pure (r.setSlot s info)

/-- A prepare signature. -/
def onPrepareFullMsg (msg : SignedShareFull) : Except Failure (ReplicaImp App) := do
  let s := msg.seqNumber
  let (r, relevant) ← r.relevantMsgForActiveView cfg env msg.viewNumber s
  if relevant = false then pure r
  else do
    let info ← r.mainLog.get s
    match commitEvidence info, info.getValidPrepareFullMsg with
    | some m, _ => pure (r.send m msg.senderId)
    | none, some _ => pure r
    | none, none => do
        let (info, _) ← info.addPrepareFull cfg msg
        pure (r.setSlot s info)

/-- A commit signature. -/
def onCommitFullMsg (msg : SignedShareFull) : Except Failure (ReplicaImp App) := do
  let s := msg.seqNumber
  let (r, relevant) ← r.relevantMsgForActiveView cfg env msg.viewNumber s
  if relevant = false then pure r
  else do
    let info ← r.mainLog.get s
    match info.partialProofs.getFullProof, info.getValidCommitFullMsg with
    | some fcp, _ => pure (r.send (.fullCommitProof fcp) msg.senderId)
    | none, some _ => pure r
    | none, none => do
        let (info, _) ← info.addCommitFull cfg msg
        pure (r.setSlot s info)

/-! ## The fast path -/

def onPartialCommitProofMsg (msg : PartialCommitProofMsg) : Except Failure (ReplicaImp App) := do
  let s := msg.seqNumber
  Assert (cfg.isIdOfPeerReplica msg.senderId = true)
  Assert (cfg.isCollectorForPartialProofs cfg.myId msg.viewNumber s = true)
  let (r, relevant) ← r.relevantMsgForActiveView cfg env msg.viewNumber s
  if relevant = false ∨ s ≤ r.lastExecutedSeqNum then pure r
  else do
    let info ← r.mainLog.get s
    let (partialProofs, added) ← info.partialProofs.addPartial cfg msg
    let r := r.setSlot s { info with partialProofsSet := partialProofs }
    -- a full proof is created in another thread, so there is none now
    Checked.require Failure.notModelled (added = false ∨ partialProofs.hasFullProof = false)
    pure r

/-- The part of `onMessage(FullCommitProofMsg*)` before `commitFullCommitProof`. -/
def addFullCommitProof (msg : FullCommitProofMsg) : Except Failure (ReplicaImp App × Bool) := do
  let s := msg.seqNumber
  let (r, relevant) ← r.relevantMsgForActiveView cfg env msg.viewNumber s
  if relevant = false then pure (r, false)
  else do
    let info ← r.mainLog.get s
    let (partialProofs, added) := info.partialProofs.addFull cfg msg
    if added = false then pure (r, false)
    else do
      Assert (info.hasPrePrepareMsg = true)
      pure (r.setSlot s { info with partialProofsSet := partialProofs }, true)

/-- A full proof commits its number. -/
def onFullCommitProofMsg (msg : FullCommitProofMsg) : Except Failure (ReplicaImp App) := do
  let (r, added) ← r.addFullCommitProof cfg env msg
  if added then r.commitFullCommitProof cfg handler env msg.seqNumber else pure r

/-! ## Results of background jobs

A result that does not belong to the job of the slot is no event of the system; `step` ignores it. -/

/-- The checks that every handler of a result starts with. -/
def jobIsRelevant (v : ViewNum) (s : SeqNum) : Bool :=
  !r.isCollectingState && r.currentViewIsActive && r.curView == v && r.mainLog.insideActiveWindow s

/-- The full proof of the fast path has been created. -/
def onFullProofCreated (s : SeqNum) (sig : Bytes) : Except Failure (ReplicaImp App) :=
  let info := r.mainLog.lookup s
  match info.partialProofs.job with
  | none => pure r
  | some job =>
    if cfg.verify job.key job.expectedDigest sig = true ∧
        r.jobIsRelevant job.view job.seqNumber = true then
      let r := r.setSlot s { info with partialProofsSet := { info.partialProofs with job := none } }
      let msg : FullCommitProofMsg := ⟨cfg.myId, job.view, job.seqNumber, sig⟩
      (r.sendToAllOtherReplicas (.fullCommitProof msg)).onFullCommitProofMsg cfg handler env msg
    else pure r

/-- `onPrepareCombinedSigFailed`, `onPrepareCombinedSigSucceeded` and
    `onPrepareVerifyCombinedSigResult` -/
def onPrepareJobResult (s : SeqNum) (result : SeqNumInfo.JobResult) :
    Except Failure (ReplicaImp App) := do
  let v := (r.mainLog.lookup s).prepareSigCollector.expectedView
  if r.jobIsRelevant v s = false then pure r
  else do
    let info ← r.mainLog.get s
    match ← SeqNumInfo.completeJob cfg info.prepareSigCollector s v result with
    | none => pure r
    | some (c, false) => pure (r.setSlot s { info with prepareSigCollector := c })
    | some (c, true) => do
        let info := { info with prepareSigCollector := c }
        let r := r.setSlot s info
        match info.getValidPrepareFullMsg with
        | none => .error .assertion
        | some preFull =>
          if info.partialProofs.hasFullProof then pure r
          else do
            let r := if result = .verified then r
              else r.sendToAllOtherReplicas (.prepareFull preFull)
            Assert (info.isPrepared = true)
            r.sendCommitPartial cfg s

/-- The part of the handlers of commit signatures before `executeReadWriteRequests`. -/
def addCommitSig (s : SeqNum) (result : SeqNumInfo.JobResult) :
    Except Failure (ReplicaImp App × Bool) := do
  let v := (r.mainLog.lookup s).commitMsgsCollector.expectedView
  if r.jobIsRelevant v s = false then pure (r, false)
  else do
    let info ← r.mainLog.get s
    match ← SeqNumInfo.completeJob cfg info.commitMsgsCollector s v result with
    | none => pure (r, false)
    | some (c, false) => pure (r.setSlot s { info with commitMsgsCollector := c }, false)
    | some (c, true) => do
        let info := { info with commitMsgsCollector := c }
        let r := r.setSlot s info
        match info.getValidCommitFullMsg with
        | none => .error .assertion
        | some commitFull =>
          if result = .verified then do
            Assert (info.isCommitted = true)
            pure (r, true)
          else if info.partialProofs.hasFullProof then pure (r, false)
          else do
            Assert (info.isCommitted = true)
            pure (r.sendToAllOtherReplicas (.commitFull commitFull), true)

/-- `onCommitCombinedSigFailed`, `onCommitCombinedSigSucceeded` and
    `onCommitVerifyCombinedSigResult` -/
def onCommitJobResult (s : SeqNum) (result : SeqNumInfo.JobResult) :
    Except Failure (ReplicaImp App) := do
  let (r, executes) ← r.addCommitSig cfg s result
  if executes then
    r.executeReadWriteRequests cfg handler env
      (decide (r.lastExecutedSeqNum + cfg.maxConcurrentAgreementsByPrimary < s))
  else pure r

/-! ## Checkpoints -/

/-- The table of stable checkpoints after a message, and whether state should be transferred. -/
def updateTableOfStableCheckpoints (msg : CheckpointMsg) : Except Failure (ReplicaImp App × Bool) :=
  let table := r.tableOfStableCheckpoints
  if msg.isStableState = true ∧ r.lastExecutedSeqNum < msg.seqNumber ∧
      (table.lookup msg.genReplicaId).all (fun m => decide (m.seqNumber < msg.seqNumber)) = true then
    let table := table.filter (fun e => e.1 != msg.genReplicaId) ++ [(msg.genReplicaId, msg)]
    if table.length < cfg.fVal + 1 then pure ({ r with tableOfStableCheckpoints := table }, false)
    else
      let table := table.filter fun e => decide (r.lastExecutedSeqNum < e.2.seqNumber)
      let r := { r with tableOfStableCheckpoints := table }
      let numRelevantAboveWindow := table.countP fun e =>
        decide (r.lastStableSeqNum + kWorkWindowSize < e.2.seqNumber)
      if cfg.fVal + 1 ≤ numRelevantAboveWindow then pure (r, true)
      else if cfg.fVal + 1 ≤ table.length then do
        -- the time of the last commit is read
        if r.mainLog.insideActiveWindow r.lastExecutedSeqNum then
          let _ ← r.mainLog.get r.lastExecutedSeqNum
        pure (r, env.timeToStartStateTransfer)
      else pure (r, false)
  else pure (r, false)

/-- The second part of `onMessage(CheckpointMsg*)`. -/
def considerStateTransfer (msg : CheckpointMsg) : Except Failure (ReplicaImp App) := do
  let (r, askForStateTransfer) ← r.updateTableOfStableCheckpoints cfg env msg
  if askForStateTransfer then pure { r with isCollectingState := true }
  else if r.lastStableSeqNum + kWorkWindowSize < msg.seqNumber ∨
      msg.seqNumber + kWorkWindowSize < r.lastStableSeqNum then
    r.tryToSendStatusReport cfg env
  else pure r

def onCheckpointMsg (msg : CheckpointMsg) : Except Failure (ReplicaImp App) :=
  let s := msg.seqNumber
  if r.lastStableSeqNum < s ∧ s ≤ r.lastStableSeqNum + kWorkWindowSize then do
    Assert (r.mainLog.insideActiveWindow s = true)
    let info ← r.checkpointsLog.get s
    let info := info.addCheckpointMsg cfg.toReplicasInfo cfg.myId msg msg.genReplicaId
    let r := r.setCheckpoint s info
    if info.isCheckpointCertificateComplete then do
      Assert ((info.selfCheckpointMsg cfg.toReplicasInfo cfg.myId).isSome = true)
      r.onSeqNumIsStable cfg env s
    else r.considerStateTransfer cfg env msg
  else r.considerStateTransfer cfg env msg

/-! ## Helping other replicas -/

/-- Sends the given message, if there is one. -/
def sendIfSome (m : Option Msg) (dest : NodeIdType) : ReplicaImp App :=
  m.elim r fun m => r.send m dest

def onReqMissingDataMsg (msg : ReqMissingDataMsg) : Except Failure (ReplicaImp App) :=
  let s := msg.seqNumber
  if r.currentViewIsActive = true ∧ r.strictLowerBoundOfSeqNums < s ∧
      r.mainLog.insideActiveWindow s = true then do
    let info ← r.mainLog.get s
    let dest := msg.senderId
    let senderIsPrimary := r.currentPrimary cfg == dest
    let answer := fun (missing : Bool) (m : Option Msg) (r : ReplicaImp App) =>
      if missing then r.sendIfSome m dest else r
    let r := if r.isCurrentPrimary cfg then
        let r := answer msg.prePrepareIsMissing (info.getSelfPrePrepareMsg.map .prePrepare) r
        answer (info.slowPathStarted && !msg.slowPathHasStarted)
          (some (.startSlowCommit ⟨cfg.myId, r.curView, s⟩)) r
      else r
    let r := answer msg.partialProofIsMissing
      (info.partialProofs.getSelfPartialCommitProof.map .partialCommitProof) r
    let r := answer (msg.partialPrepareIsMissing && senderIsPrimary)
      ((info.getSelfPreparePartialMsg cfg).map .preparePartial) r
    let r := answer msg.fullPrepareIsMissing (info.getValidPrepareFullMsg.map .prepareFull) r
    let r := answer (msg.partialCommitIsMissing && senderIsPrimary)
      ((info.getSelfCommitPartialMsg cfg).map .commitPartial) r
    let r := answer msg.fullCommitIsMissing (info.getValidCommitFullMsg.map .commitFull) r
    pure (answer msg.fullCommitProofIsMissing
      (info.partialProofs.getFullProof.map .fullCommitProof) r)
  else pure r

/-- Sends a PrePrepare of a slot to a replica. -/
def sendPrePrepareOf (sel : SeqNumInfo → Option PrePrepareMsg) (dest : NodeIdType) (i : SeqNum) :
    Except Failure (ReplicaImp App) := do
  let info ← r.mainLog.get i
  pure (r.sendIfSome ((sel info).map .prePrepare) dest)

variable (msg : ReplicaStatusMsg)

/-- PrePrepares for a replica that cannot enter the current view without them. -/
def sendMissingPrePrepares (missing : List SeqNum) : Except Failure (ReplicaImp App) :=
  let numbers := (seqNums (asInt64 (msg.lastStableSeqNum + 1))
    (asInt64 (msg.lastStableSeqNum + kWorkWindowSize))).filter fun i => missing.contains i
  if r.currentViewIsActive then
    numbers.foldlM (fun r i =>
      if r.mainLog.insideActiveWindow i then
        r.sendPrePrepareOf SeqNumInfo.getPrePrepareMsg msg.senderId i
      else pure r) r
  else
    numbers.foldlM (fun r i => do
      let pp ← r.viewsManager.getPrePrepare i
      pure (r.sendIfSome (pp.map .prePrepare) msg.senderId)) r

/-- The own view change message, which exists in every view but the first. -/
def sendMyViewChangeMsg (dest : NodeIdType) : Except Failure (ReplicaImp App) :=
  match r.viewsManager.getMyLatestViewChangeMsg cfg with
  | none => .error .assertion
  | some myVC => pure (r.send (.viewChange myVC) dest)

def sendMyNewViewMsg (dest : NodeIdType) : Except Failure (ReplicaImp App) := do
  let nv ← r.viewsManager.getMyNewViewMsgForCurrentView cfg
  pure (r.send (.newView nv) dest)

/-- The sender of the status needs information to enter the current view. -/
def helpToEnterView : Except Failure (ReplicaImp App) :=
  let dest := msg.senderId
  if r.isCurrentPrimary cfg = true ∨ r.currentPrimary cfg = dest then do
    let r ← (if r.isCurrentPrimary cfg = true ∧ msg.hasNewChangeMsg = false ∧
        r.currentViewIsActive = true then r.sendMyNewViewMsg cfg dest else pure r)
    let r ← (if msg.listOfMissingVCMsg.any (fun l => l.contains cfg.myId) then
        r.sendMyViewChangeMsg cfg dest
      else pure r)
    match msg.listOfMissingPPMsg with
    | none => pure r
    | some missing => r.sendMissingPrePrepares msg missing
  else pure r

/-- The sender of the status is in the current view: the primary sends the PrePrepares that it
    lacks. -/
def helpInView : Except Failure (ReplicaImp App) :=
  if r.isCurrentPrimary cfg = false then pure r
  else if r.currentViewIsActive = false then r.tryToSendStatusReport cfg env
  else do
    let beginRange := max (r.lastStableSeqNum + 1) (asInt64 (msg.lastExecutedSeqNum + 1))
    let endRange := min (r.lastStableSeqNum + kWorkWindowSize)
      (asInt64 (msg.lastStableSeqNum + kWorkWindowSize))
    (seqNums beginRange endRange).foldlM (fun r i => do
      if ← msg.isPrePrepareInActiveWindow i then pure r
      else r.sendPrePrepareOf SeqNumInfo.getSelfPrePrepareMsg msg.senderId i) r

/-- Sends the own checkpoint messages of the given checkpoints. -/
def sendCheckpoints (dest : NodeIdType) :
    List SeqNum → ReplicaImp App → Except Failure (ReplicaImp App)
  | [], r => pure r
  | i :: rest, r => do
      let info ← r.checkpointsLog.get i
      let checkMsg := info.selfCheckpointMsg cfg.toReplicasInfo cfg.myId
      sendCheckpoints dest rest (r.sendIfSome (checkMsg.map .checkpoint) dest)

/-- The multiples of `checkpointWindowSize` from `beginRange` to `endRange`. -/
def checkpointsInRange (beginRange endRange : SeqNum) : List SeqNum :=
  (List.range ((endRange - beginRange) / checkpointWindowSize + 1).toNat).map fun (k : ℕ) =>
    beginRange + (k : Int) * checkpointWindowSize

/-- Sends the checkpoints that may be useful for the sender of the status. -/
def sendUsefulCheckpoints : Except Failure (ReplicaImp App) := do
  let first := r.checkpointsLog.beginningOfActiveWindow
  let second := first + (kWorkWindowSize + checkpointWindowSize) - 1
  let beginRange := max first (asInt64 (msg.lastStableSeqNum + checkpointWindowSize))
  let endRange := min second (asInt64 (msg.lastStableSeqNum + kWorkWindowSize))
  Assert (beginRange % checkpointWindowSize = 0)
  if beginRange ≤ endRange then do
    Assert (endRange - beginRange ≤ kWorkWindowSize)
    r.sendCheckpoints cfg msg.senderId (checkpointsInRange beginRange endRange)
  else pure r

/-- The part of `onMessage(ReplicaStatusMsg*)` about views. -/
def helpWithViews : Except Failure (ReplicaImp App) :=
  if msg.viewNumber < r.curView then r.sendMyViewChangeMsg cfg msg.senderId
  else if msg.viewNumber = r.curView then
    if msg.viewIsActive then r.helpInView cfg env msg else r.helpToEnterView cfg msg
  else r.tryToSendStatusReport cfg env

def onReplicaStatusMsg : Except Failure (ReplicaImp App) := do
  Assert (msg.lastStableSeqNum % checkpointWindowSize = 0)
  if asInt64 (msg.lastStableSeqNum + kWorkWindowSize) < r.lastStableSeqNum then do
    let info ← r.checkpointsLog.get r.lastStableSeqNum
    let checkMsg := (info.selfCheckpointMsg cfg.toReplicasInfo cfg.myId).filter (·.isStableState)
    pure (r.sendIfSome (checkMsg.map .checkpoint) msg.senderId)
  else do
    let r ← (if r.lastStableSeqNum + kWorkWindowSize < msg.lastStableSeqNum then
        r.tryToSendStatusReport cfg env
      else r.sendUsefulCheckpoints cfg msg)
    r.helpWithViews cfg env msg

/-- The first number from `i` on whose slot is not committed. -/
def firstNotCommitted : List SeqNum → ReplicaImp App → SeqNum → Except Failure SeqNum
  | [], _, last => pure (last + 1)
  | i :: rest, r, last => do
      let info ← r.mainLog.get i
      if info.isCommitted then firstNotCommitted rest r last else pure i

/-- The last of the given numbers whose information is old. -/
def lastOldInfo : List SeqNum → ReplicaImp App → SeqNum → Except Failure SeqNum
  | [], _, lastRelatedSeqNum => pure lastRelatedSeqNum
  | i :: rest, r, lastRelatedSeqNum => do
      Assert (r.mainLog.insideActiveWindow i = true)
      let _ ← r.mainLog.get i
      lastOldInfo rest r (if env.oldInfo i then i else lastRelatedSeqNum)

def tryToAskForMissingInfo : Except Failure (ReplicaImp App) :=
  if r.currentViewIsActive = false ∨ r.isCollectingState = true then pure r
  else do
    let windowEnd := r.lastStableSeqNum + kWorkWindowSize
    Assert (r.maxSeqNumTransferredFromPrevViews ≤ windowEnd)
    let recentViewChange := decide (r.lastStableSeqNum < r.maxSeqNumTransferredFromPrevViews)
    let minSeqNum ← (if recentViewChange then
        r.firstNotCommitted (seqNums (r.lastStableSeqNum + 1) windowEnd) windowEnd
      else pure (r.lastExecutedSeqNum + 1))
    let searchWindow : Int := if recentViewChange then 32 else 4
    let maxSeqNum := min (minSeqNum + searchWindow - 1) windowEnd
    if windowEnd < minSeqNum then pure r
    else do
      let lastRelatedSeqNum ← r.lastOldInfo env (seqNums minSeqNum maxSeqNum) 0
      (seqNums minSeqNum lastRelatedSeqNum).foldlM (fun r i =>
        if recentViewChange then
          r.tryToSendReqMissingDataMsg cfg env i true (some (r.currentPrimary cfg))
        else r.tryToSendReqMissingDataMsg cfg env i false none) r

end ConcordBft.ReplicaImp
