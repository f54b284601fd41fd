import ConcordBft.ReplicaImp.Execution

set_option autoImplicit false

/-! # Leaving and entering views, completed state transfers

`MoveToHigherView` empties the window into the view change message of the replica. `onNewView` fills
it with the PrePrepares of the new view and sets the counters of the primary. A completed state
transfer moves `lastExecutedSeqNum` to the new checkpoint and the windows behind it. -/

namespace ConcordBft.ReplicaImp

open Checked

variable {App : Type} (cfg : ReplicaConfig) (handler : RequestsHandler App) (env : Env)

/-! ## Leaving a view -/

/-- Takes the PrePrepares and prepared certificates out of the slots of the given numbers. -/
def takePrevViewInfo : List SeqNum → ReplicaImp App → Except Failure (ReplicaImp App × List PrevViewInfo)
  | [], r => pure (r, [])
  | i :: rest, r => do
      let info ← r.mainLog.get i
      let (prePrepare, prepareFull) := info.getAndReset
      let r := r.setSlot i {}
      match prePrepare with
      | none => takePrevViewInfo rest r
      | some pp => do
          Assert (pp.viewNumber = r.curView)
          Assert (prepareFull.all (fun pf => pf.viewNumber == r.curView) = true)
          let (r, infos) ← takePrevViewInfo rest r
          pure (r, ⟨pp, true, prepareFull⟩ :: infos)

variable (r : ReplicaImp App)

/-- The view change message of the replica: a new one, or the one it has. -/
def viewChangeMsgForHigherView : Except Failure (ReplicaImp App × ViewChangeMsg) :=
  if r.currentViewIsActive then do
    let (r, prevViewInfo) ← r.takePrevViewInfo
      (seqNums (r.lastStableSeqNum + 1) (r.lastStableSeqNum + kWorkWindowSize))
    let (vm, pVC) ← r.viewsManager.exitFromCurrentView cfg r.lastStableSeqNum r.lastExecutedSeqNum
      prevViewInfo
    pure ({ r with viewsManager := vm }, pVC)
  else
    match r.viewsManager.getMyLatestViewChangeMsg cfg with
    | none => .error .assertion
    | some pVC => pure (r, pVC)

def MoveToHigherView (nextView : ViewNum) : Except Failure (ReplicaImp App) := do
  Assert (cfg.viewChangeProtocolEnabled = true)
  Assert (r.curView < nextView)
  let (r, pVC) ← r.viewChangeMsgForHigherView cfg
  let pVC ← pVC.setNewViewNumber nextView
  let r := { r with
    viewsManager := r.viewsManager.updateMyLatestViewChangeMsg cfg pVC
    curView := nextView }
  pure (r.sendToAllOtherReplicas (.viewChange pVC))

/-- Asks for the next view. -/
def GotoNextView : Except Failure (ReplicaImp App) := r.MoveToHigherView cfg (r.curView + 1)

/-! ## Entering a view -/

/-- The primary sends its new view message. -/
def sendNewViewMsg : Except Failure (ReplicaImp App) :=
  if r.isCurrentPrimary cfg then do
    let nv ← r.viewsManager.getMyNewViewMsgForCurrentView cfg
    Assert (nv.newView = r.curView)
    pure (r.sendToAllOtherReplicas (.newView nv))
  else pure r

variable (prePreparesForNewView : List PrePrepareMsg)

/-- The first and the last number of the PrePrepares of the new view. -/
def firstPPSeq : SeqNum :=
  (prePreparesForNewView.head?.map (·.seqNumber)).getD 0

def lastPPSeq : SeqNum :=
  (prePreparesForNewView.getLast?.map (·.seqNumber)).getD 0

/-- The counters of the new view. -/
def setCountersOfNewView : ReplicaImp App :=
  if prePreparesForNewView.isEmpty then
    { r with
      primaryLastUsedSeqNum := r.lastStableSeqNum
      strictLowerBoundOfSeqNums := r.lastStableSeqNum
      maxSeqNumTransferredFromPrevViews := r.lastStableSeqNum }
  else
    { r with
      primaryLastUsedSeqNum := lastPPSeq prePreparesForNewView
      strictLowerBoundOfSeqNums := firstPPSeq prePreparesForNewView - 1
      maxSeqNumTransferredFromPrevViews := lastPPSeq prePreparesForNewView }

/-- One round of the loop of `onNewView`. -/
def addPrePrepareOfNewView (first last : SeqNum) (r : ReplicaImp App) (pp : PrePrepareMsg) :
    Except Failure (ReplicaImp App) := do
  Assert (first ≤ pp.seqNumber)
  Assert (pp.seqNumber ≤ last)
  Assert (pp.firstPath = .SLOW)
  let info ← r.mainLog.get pp.seqNumber
  let (info, added) ← (if r.isCurrentPrimary cfg then do
      let info ← info.addSelfPrePrepare cfg pp
      pure (info, true)
    else info.addPrePrepare cfg pp)
  let r := r.setSlot pp.seqNumber info.startSlowPath
  let r := if added then r.record (.accept r.curView pp.seqNumber pp.digestOfRequests) else r
  r.sendPreparePartial cfg pp.seqNumber

def onNewView : Except Failure (ReplicaImp App) := do
  Assert (r.currentViewIsActive = true)
  Assert (r.viewsManager.lowerBoundStableForPendingView ≤ r.lastStableSeqNum)
  Assert (r.lastStableSeqNum ≤ r.lastExecutedSeqNum)
  let r ← r.sendNewViewMsg cfg
  let r := r.setCountersOfNewView prePreparesForNewView
  let r ← prePreparesForNewView.foldlM
    (addPrePrepareOfNewView cfg (firstPPSeq prePreparesForNewView) (lastPPSeq prePreparesForNewView))
    r
  pure { r with
    execution := { r.execution with
      clientsManager := r.execution.clientsManager.clearAllPendingRequests }
    requestsQueueOfPrimary := [] }

/-- The messages of the pending view, in the order of the replica ids. -/
def viewChangeMsgs : List (Option ViewChangeMsg) :=
  (List.range cfg.numberOfReplicas).map r.viewsManager.viewChangeMsgsOfPendingView

def tryToEnterView (r : ReplicaImp App) : Except Failure (ReplicaImp App) := do
  Assert (r.currentViewIsActive = false)
  let (vm, prePreparesForNewView) ← r.viewsManager.tryToEnterView cfg r.curView r.lastStableSeqNum
    r.lastExecutedSeqNum
  let r := { r with viewsManager := vm }
  match prePreparesForNewView with
  | some prePrepares =>
    let r := r.record (.enterView r.curView (r.viewChangeMsgs cfg)
      vm.lowerBoundStableForPendingView r.lastStableSeqNum)
    r.onNewView cfg prePrepares
  | none => r.tryToSendStatusReport cfg env

/-! ## Messages of the view change -/

/-- The part of `onMessage(ViewChangeMsg*)` before `tryToEnterView`; returns whether that is
    called. -/
def addViewChangeMsg (msg : ViewChangeMsg) : Except Failure (ReplicaImp App × Bool) := do
  Assert (msg.genReplicaId ≠ cfg.myId)
  let (vm, msgAdded) ← r.viewsManager.addViewChange cfg msg
  let r := { r with viewsManager := vm }
  if msgAdded = false then pure (r, false)
  else do
    -- if the current primary wants to leave view
    let r ← (if msg.genReplicaId = r.currentPrimary cfg ∧ r.curView < msg.newView then
        r.MoveToHigherView cfg (r.curView + 1)
      else pure r)
    let maxKnownCorrectView := (r.viewsManager.computeCorrectRelevantViewNumbers cfg).1
    let r ← (if r.curView < maxKnownCorrectView then r.MoveToHigherView cfg maxKnownCorrectView
      else pure r)
    let maxKnownAgreedView := (r.viewsManager.computeCorrectRelevantViewNumbers cfg).2
    if r.currentViewIsActive = true ∨ maxKnownAgreedView ≠ r.curView then pure (r, false)
    else pure ({ r with lastAgreedView := max r.lastAgreedView r.curView }, true)

/-- A view change message of a peer. -/
def onViewChangeMsg (msg : ViewChangeMsg) : Except Failure (ReplicaImp App) :=
  if cfg.viewChangeProtocolEnabled = false then pure r
  else do
    let (r, enters) ← r.addViewChangeMsg cfg msg
    if enters then r.tryToEnterView cfg env else pure r

/-- The part of `onMessage(NewViewMsg*)` before `tryToEnterView`. -/
def addNewViewMsg (msg : NewViewMsg) : Except Failure (ReplicaImp App × Bool) := do
  Assert (msg.senderId ≠ cfg.myId)
  let (vm, added) ← r.viewsManager.addNewView cfg msg
  let r := { r with viewsManager := vm }
  pure (r, added && !r.currentViewIsActive)

/-- The new view message of a primary. -/
def onNewViewMsg (msg : NewViewMsg) : Except Failure (ReplicaImp App) :=
  if cfg.viewChangeProtocolEnabled = false then pure r
  else do
    let (r, enters) ← r.addNewViewMsg cfg msg
    if enters then r.tryToEnterView cfg env else pure r

/-- A PrePrepare that arrives while the replica waits for those of the restrictions: the part before
    `tryToEnterView`. -/
def addMissingPrePrepare (msg : PrePrepareMsg) : Except Failure (ReplicaImp App × Bool) := do
  Assert (msg.isNull = false)
  let (vm, added) ← r.viewsManager.addPotentiallyMissingPP msg
  pure ({ r with viewsManager := vm }, added)

def onMissingPrePrepare (msg : PrePrepareMsg) : Except Failure (ReplicaImp App) := do
  let (r, added) ← r.addMissingPrePrepare msg
  if added then r.tryToEnterView cfg env else pure r

/-- `env.timeToChangeView`: the timeouts of `onViewsChangeTimer` are over. -/
def onViewsChangeTimer : Except Failure (ReplicaImp App) := do
  Assert (cfg.viewChangeProtocolEnabled = true)
  if r.isCollectingState = true ∨ env.timeToChangeView = false then pure r
  else if r.currentViewIsActive then
    if r.isCurrentPrimary cfg = true ∨
        (ClientsManager.clients cfg).all (fun i =>
          (r.execution.clientsManager.indexToClientInfo i).currentPendingRequest == 0) = true then
      pure r
    else r.GotoNextView cfg
  else if r.lastAgreedView ≠ r.curView ∨ cfg.primaryOfView r.lastAgreedView = cfg.myId then pure r
  else r.GotoNextView cfg

/-! ## Completed state transfers -/

def hasOwnCheckpoint (n : SeqNum) : Except Failure Bool :=
  if r.checkpointsLog.insideActiveWindow n then do
    let info ← r.checkpointsLog.get n
    pure (info.selfCheckpointMsg cfg.toReplicasInfo cfg.myId).isSome
  else pure false

variable (newStateCheckpoint : SeqNum)

/-- The windows move behind a checkpoint that is above them. -/
def moveWindowsTo : Except Failure (ReplicaImp App) :=
  if r.lastStableSeqNum + kWorkWindowSize < newStateCheckpoint then do
    let refPoint := newStateCheckpoint - kWorkWindowSize
    let withRefCheckpoint ← r.hasOwnCheckpoint cfg refPoint
    if withRefCheckpoint then r.onSeqNumIsStable cfg env refPoint
    else r.onSeqNumIsStableWithoutRefCheckpoint refPoint
  else pure r

/-- The block for a checkpoint above the last executed number. -/
def adoptNewState : Except Failure (ReplicaImp App) := do
  let cm ← r.execution.clientsManager.loadInfoFromReservedPages cfg
  let r := { r with
    lastExecutedSeqNum := newStateCheckpoint
    execution := { r.execution with clientsManager := cm } }
  let r ← r.moveWindowsTo cfg env newStateCheckpoint
  let checkpointMsg : CheckpointMsg :=
    ⟨cfg.myId, newStateCheckpoint, env.digestOfCheckpoint newStateCheckpoint, false⟩
  let info ← r.checkpointsLog.get newStateCheckpoint
  let info := (info.addCheckpointMsg cfg.toReplicasInfo cfg.myId checkpointMsg cfg.myId)
  let r := r.setCheckpoint newStateCheckpoint info.setCheckpointSentAllOrApproved
  pure (r.sendToAllOtherReplicas (.checkpoint checkpointMsg))

/-- What the table of stable checkpoints says about the new state. -/
def checkTableOfStableCheckpoints : Except Failure (ReplicaImp App × Bool) :=
  if r.tableOfStableCheckpoints.length < cfg.fVal + 1 then pure (r, false)
  else do
    let numOfStableCheckpoints := r.tableOfStableCheckpoints.countP fun e =>
      decide (newStateCheckpoint ≤ e.2.seqNumber)
    let table := r.tableOfStableCheckpoints.filter fun e =>
      decide (r.lastExecutedSeqNum < e.2.seqNumber)
    let r := { r with tableOfStableCheckpoints := table }
    let r ← (if cfg.fVal + 1 ≤ numOfStableCheckpoints then
        r.onSeqNumIsStable cfg env newStateCheckpoint
      else pure r)
    pure (r, decide (cfg.fVal + 1 ≤ r.tableOfStableCheckpoints.length))

/-- The part of `onTransferringCompleteImp` before `executeReadWriteRequests`; returns whether
    another state transfer is asked for. -/
def takeNewState : Except Failure (ReplicaImp App × Bool) := do
  Assert (newStateCheckpoint % checkpointWindowSize = 0)
  let r ← (if r.lastExecutedSeqNum < newStateCheckpoint then
      r.adoptNewState cfg env newStateCheckpoint
    else pure r)
  let (r, askAnotherStateTransfer) ← r.checkTableOfStableCheckpoints cfg env newStateCheckpoint
  pure ({ r with primaryLastUsedSeqNum := max r.primaryLastUsedSeqNum newStateCheckpoint },
    askAnotherStateTransfer)

/-- An active replica goes on with the numbers after the new state. -/
def executeAfterTransfer : Except Failure (ReplicaImp App) :=
  if r.currentViewIsActive = true ∧ r.isCollectingState = false then do
    let r ← r.executeReadWriteRequests cfg handler env false
    if r.isCurrentPrimary cfg = true ∧ 0 < r.requestsQueueOfPrimary.length then
      r.tryToSendPrePrepareMsg cfg env false
    else pure r
  else pure r

def onTransferringCompleteImp : Except Failure (ReplicaImp App) := do
  let (r, askAnotherStateTransfer) ← r.takeNewState cfg env newStateCheckpoint
  let r ← r.executeAfterTransfer cfg handler env
  pure (if askAnotherStateTransfer then { r with isCollectingState := true } else r)

end ConcordBft.ReplicaImp
