import ConcordBft.ReplicaImp.State

set_option autoImplicit false

/-! # What a replica sends about a sequence number

The functions that make and send the replica's own shares, propose PrePrepares, and ask for missing
information. `SeqNumInfo&` arguments of the source are the numbers of the slots here; reading through
such a reference is `lookup`, which asserts nothing. -/

namespace ConcordBft.ReplicaImp

open Checked

variable {App : Type} (cfg : ReplicaConfig) (env : Env)

/-! ## Shares -/

variable (r : ReplicaImp App)

/-- The own share of the fast path for a PrePrepare; it is made only once. -/
def selfPartialProof (s : SeqNum) (pp : PrePrepareMsg) :
    Except Failure (ReplicaImp App × PartialCommitProofMsg) :=
  let info := r.mainLog.lookup s
  match info.partialProofs.getSelfPartialCommitProof with
  | some part => pure (r, part)
  | none => do
      let commitPath := pp.firstPath
      Assert (cfg.cVal ≠ 0 ∨ commitPath ≠ .FAST_WITH_THRESHOLD)
      let part : PartialCommitProofMsg := ⟨cfg.myId, r.curView, pp.seqNumber, commitPath⟩
      let partialProofs ← info.partialProofs.addSelfMsgAndPPDigest cfg part
        (ReplicaConfig.prepareDigest r.curView pp.seqNumber pp.digestOfRequests)
      let r := r.setSlot s { info with partialProofsSet := partialProofs }
      pure (r.record (.sign (.fast commitPath) r.curView pp.seqNumber pp.digestOfRequests), part)

/-- Sends the share to the collectors, if at most `MaxConcurrentFastPaths` are in progress. -/
def sendToCollectors (part : PartialCommitProofMsg) (seqNum : SeqNum) : ReplicaImp App :=
  if seqNum ≤ r.lastExecutedSeqNum + MaxConcurrentFastPaths then
    (cfg.getCollectorsForPartialProofs r.curView seqNum).foldl (fun r router =>
      if router ≠ (cfg.myId : Int) then r.send (.partialCommitProof part) router.toNat else r) r
  else r

/-- The source commits at the end if the slot has a full proof. It never has: the share was made just
    now, and a full proof is accepted only after the own share. -/
def sendPartialProof (s : SeqNum) : Except Failure (ReplicaImp App) :=
  match (r.mainLog.lookup s).getPrePrepareMsg with
  | none => pure r
  | some pp => do
      let r ← (if (r.mainLog.lookup s).partialProofs.hasFullProof then pure r
        else do
          let (r, part) ← r.selfPartialProof cfg s pp
          pure (r.sendToCollectors cfg part pp.seqNumber))
      Checked.require Failure.notModelled
        ((r.mainLog.lookup s).partialProofs.hasFullProof = false)
      pure r

/-- Makes the own prepare share. -/
def sendPreparePartial (s : SeqNum) : Except Failure (ReplicaImp App) := do
  Assert (r.currentViewIsActive = true)
  let info := r.mainLog.lookup s
  match info.getPrePrepareMsg with
  | none => pure r
  | some pp =>
    if (info.getSelfPreparePartialMsg cfg).isSome = true ∨ info.isPrepared = true then pure r
    else do
      let p : SignedSharePartial := ⟨cfg.myId, r.curView, pp.seqNumber⟩
      let info ← info.addSelfPreparePartial cfg p
      let r := (r.setSlot s info).record
        (.sign .prepare r.curView pp.seqNumber pp.digestOfRequests)
      if r.isCurrentPrimary cfg then pure r
      else pure (r.send (.preparePartial p) (r.currentPrimary cfg))

/-- Makes the own commit share. -/
def sendCommitPartial (s : SeqNum) : Except Failure (ReplicaImp App) := do
  Assert (r.currentViewIsActive = true)
  Assert (r.mainLog.insideActiveWindow s = true)
  let info ← r.mainLog.get s
  Assert (info.isPrepared = true)
  match info.getPrePrepareMsg with
  | none => .error .assertion
  | some pp => do
      Assert (pp.seqNumber = s)
      if info.committedOrHasCommitPartialFromReplica cfg.myId then pure r
      else do
        let c : SignedSharePartial := ⟨cfg.myId, r.curView, s⟩
        let info ← info.addSelfCommitPartialMsgAndDigest cfg c
          (cfg.digestOfDigest pp.digestOfRequests)
        let r := (r.setSlot s info).record (.sign .commit r.curView s pp.digestOfRequests)
        if r.isCurrentPrimary cfg then pure r
        else pure (r.send (.commitPartial c) (r.currentPrimary cfg))

/-! ## Proposing -/

/-- `remainingSizeForRequests` of a new PrePrepare; its header has 58 bytes. -/
def sizeForRequests : ℕ := maxExternalMessageSize - 58

/-- Moves requests from the head of the queue to a PrePrepare while they fit. Returns the clients,
    the requests of the PrePrepare and the rest of the queue. -/
def takeRequests : List ClientRequestMsg → ℕ → ClientsManager → List ClientRequestMsg →
    Except Failure (ClientsManager × List ClientRequestMsg × List ClientRequestMsg)
  | [], _, cm, added => pure (cm, added, [])
  | nextRequest :: rest, remainingSize, cm, added =>
    if nextRequest.size ≤ remainingSize then
      if cm.noPendingAndRequestCanBecomePending nextRequest.clientProxyId
          nextRequest.requestSeqNum then do
        -- `addRequest`
        Assert (nextRequest.getRequestSizeTemp = nextRequest.size)
        let cm ← cm.addPendingRequest nextRequest.clientProxyId nextRequest.requestSeqNum
        takeRequests rest (remainingSize - nextRequest.size) cm (added ++ [nextRequest])
      else takeRequests rest remainingSize cm added
    else pure (cm, added, nextRequest :: rest)

/-- The `batchingFactor` is updated at the end of a work window. -/
def updateBatchingFactor : ReplicaImp App :=
  if r.primaryLastUsedSeqNum % kWorkWindowSize = 0 then
    { r with
      batchingFactor := max 1 (r.maxNumberOfPendingRequestsInRecentHistory / 4)
      maxNumberOfPendingRequestsInRecentHistory := 0 }
  else r

/-- Sends a PrePrepare of the primary, adds it to its slot and votes for it. -/
def proposePrePrepare (pp : PrePrepareMsg) : Except Failure (ReplicaImp App) := do
  let s := pp.seqNumber
  let r := r.sendToAllOtherReplicas (.prePrepare pp)
  let info ← r.mainLog.get s
  let info ← info.addSelfPrePrepare cfg pp
  let r := (r.setSlot s info).record (.accept r.curView s pp.digestOfRequests)
  if pp.firstPath = .SLOW then
    (r.setSlot s info.startSlowPath).sendPreparePartial cfg s
  else r.sendPartialProof cfg s

/-- Makes a PrePrepare for the number that was used last. -/
def proposeRequests : Except Failure (ReplicaImp App) := do
  let s := r.primaryLastUsedSeqNum
  Assert (s ≤ r.lastExecutedSeqNum + MaxConcurrentFastPaths)
  let firstPath := env.currentFirstPath s
  Assert (cfg.cVal ≠ 0 ∨ firstPath ≠ .FAST_WITH_THRESHOLD)
  let (cm, requests, queue) ← takeRequests r.requestsQueueOfPrimary sizeForRequests
    r.execution.clientsManager []
  let r := { r with
    requestsQueueOfPrimary := queue
    execution := { r.execution with clientsManager := cm } }
  Assert (0 < requests.length)
  r.proposePrePrepare cfg
    ⟨cfg.myId, r.curView, s, firstPath, false, cfg.computeRequests requests, requests⟩

/-- The part of `tryToSendPrePrepareMsg` that uses the next sequence number. -/
def sendPrePrepare : Except Failure (ReplicaImp App) :=
  ({ r with primaryLastUsedSeqNum := r.primaryLastUsedSeqNum + 1 } :
    ReplicaImp App).updateBatchingFactor.proposeRequests cfg env

/-- `concurrentDiff * batchingFactor`, but at most 350 -/
def minBatchSize (batchingLogic : Bool) : ℕ :=
  let concurrentDiff := (r.primaryLastUsedSeqNum + 1 - r.lastExecutedSeqNum).toNat
  if batchingLogic = true ∧ 2 ≤ concurrentDiff then min (concurrentDiff * r.batchingFactor) 350
  else 1

/-- Requests that cannot become pending are removed from the head of the queue. -/
def removeIrrelevantRequests : ReplicaImp App :=
  let canBecomePending := fun (first : ClientRequestMsg) =>
    r.execution.clientsManager.noPendingAndRequestCanBecomePending first.clientProxyId
      first.requestSeqNum
  { r with requestsQueueOfPrimary := r.requestsQueueOfPrimary.dropWhile (!canBecomePending ·) }

def tryToSendPrePrepareMsg (batchingLogic : Bool) : Except Failure (ReplicaImp App) := do
  Assert (r.isCurrentPrimary cfg = true ∧ r.currentViewIsActive = true)
  if r.lastStableSeqNum + kWorkWindowSize < r.primaryLastUsedSeqNum + 1 then pure r
  else if r.lastExecutedSeqNum + cfg.maxConcurrentAgreementsByPrimary <
      r.primaryLastUsedSeqNum + 1 then pure r
  else
    let r := r.removeIrrelevantRequests
    let requestsInQueue := r.requestsQueueOfPrimary.length
    if requestsInQueue = 0 then pure r
    else do
      Checked.require Failure.primaryBehindExecution
        (r.lastExecutedSeqNum ≤ r.primaryLastUsedSeqNum)
      let maxNumber := max r.maxNumberOfPendingRequestsInRecentHistory requestsInQueue
      let r := { r with maxNumberOfPendingRequestsInRecentHistory := maxNumber }
      if requestsInQueue < r.minBatchSize batchingLogic then pure r else r.sendPrePrepare cfg env

/-! ## Asking other replicas -/

/-- Reports what the replica has. -/
def tryToSendStatusReport : Except Failure (ReplicaImp App) :=
  if env.timeToSendStatusReport = false then pure r
  else do
    let viewIsActive := r.currentViewIsActive
    let hasNewChangeMsg ← r.viewsManager.hasNewViewMessage cfg r.curView
    let viewIsPending := r.viewsManager.viewIsPending r.curView
    let window := seqNums (r.lastStableSeqNum + 1) (r.lastStableSeqNum + kWorkWindowSize)
    let inWindow ← (if viewIsActive then do
        let infos ← window.mapM fun i => do
          let info ← r.mainLog.get i
          pure (i, info.hasPrePrepareMsg)
        pure (some ((infos.filter (·.2)).map (·.1)))
      else pure none)
    let missingVC := if !viewIsActive && !viewIsPending then
        some (cfg.idsOfPeerReplicas.filter fun i =>
          !r.viewsManager.hasViewChangeMessageForFutureView i)
      else none
    let missPP := r.viewsManager.getNumbersOfMissingPP r.lastStableSeqNum
    let missingPP := if !viewIsActive && viewIsPending then some missPP else none
    Assert (missingPP.all (fun l => l.all fun i =>
      r.lastStableSeqNum < i && i ≤ r.lastStableSeqNum + kWorkWindowSize) = true)
    pure (r.sendToAllOtherReplicas (.replicaStatus ⟨cfg.myId, r.curView, r.lastStableSeqNum,
      r.lastExecutedSeqNum, viewIsActive, hasNewChangeMsg, inWindow, missingVC, missingPP⟩))

/-- Is a message with the given view and sequence number for the active view and inside the window?
    If not, the replica or the sender may be behind, and a status report may be sent. -/
def relevantMsgForActiveView (msgViewNum : ViewNum) (msgSeqNum : SeqNum) :
    Except Failure (ReplicaImp App × Bool) :=
  if r.currentViewIsActive = true ∧ msgViewNum = r.curView ∧
      r.strictLowerBoundOfSeqNums < msgSeqNum ∧ r.mainLog.insideActiveWindow msgSeqNum = true then do
    Assert (r.lastStableSeqNum < msgSeqNum)
    Assert (msgSeqNum ≤ r.lastStableSeqNum + kWorkWindowSize)
    pure (r, true)
  else
    let first := r.mainLog.beginningOfActiveWindow
    let second := first + kWorkWindowSize - 1
    if (r.curView < msgViewNum ∨ second < msgSeqNum) ∨
        (msgViewNum < r.curView ∨ msgSeqNum + kWorkWindowSize < first) then do
      let r ← r.tryToSendStatusReport cfg env
      pure (r, false)
    else pure (r, false)

/-- The request for `destRep`, if anything is missing that `destRep` may have. -/
def reqMissingDataFor (seqNumber : SeqNum) (slowPathOnly : Bool) (info : SeqNumInfo)
    (destRep : ReplicaId) : Option ReqMissingDataMsg :=
  let partialProofsSet := info.partialProofs
  let iAmPrimary := r.isCurrentPrimary cfg
  let routerForPartialProofs := cfg.isCollectorForPartialProofs cfg.myId r.curView seqNumber
  let missingPrePrepare := info.getPrePrepareMsg.isNone
  let destIsPrimary := r.currentPrimary cfg == destRep
  let missingFullPrepare := !info.preparedOrHasPreparePartialFromReplica destRep
  let missingFullCommit := !info.committedOrHasCommitPartialFromReplica destRep
  let missingFullProof := !slowPathOnly && !partialProofsSet.hasFullProof
  let missingPartialProof := missingFullProof && routerForPartialProofs &&
    !partialProofsSet.hasPartialProofFromReplica destRep
  if missingFullPrepare || missingFullCommit || missingFullProof ||
      (destIsPrimary && missingPrePrepare) then
    some {
      senderId := cfg.myId
      viewNumber := r.curView
      seqNumber := seqNumber
      prePrepareIsMissing := destIsPrimary && missingPrePrepare
      partialProofIsMissing := missingPartialProof
      partialPrepareIsMissing := iAmPrimary && missingFullPrepare
      partialCommitIsMissing := iAmPrimary && missingFullCommit
      fullCommitProofIsMissing := missingFullProof
      fullPrepareIsMissing := missingFullPrepare
      fullCommitIsMissing := missingFullCommit
      slowPathHasStarted := info.slowPathStarted }
  else none

/-- `destReplicaId = none` is `ALL_OTHER_REPLICAS`. -/
def tryToSendReqMissingDataMsg (seqNumber : SeqNum) (slowPathOnly : Bool)
    (destReplicaId : Option ReplicaId) : Except Failure (ReplicaImp App) :=
  if r.currentViewIsActive = false ∨ seqNumber ≤ r.strictLowerBoundOfSeqNums ∨
      r.mainLog.insideActiveWindow seqNumber = false then pure r
  else do
    let info ← r.mainLog.get seqNumber
    if env.timeToRequestInfo seqNumber = false then pure r
    else
      let dests := (destReplicaId.elim (List.range cfg.numberOfReplicas) fun d => [d]).filter
        fun destRep => destRep != cfg.myId
      pure (dests.foldl (fun r destRep =>
        match r.reqMissingDataFor cfg seqNumber slowPathOnly info destRep with
        | some reqData => r.send (.reqMissingData reqData) destRep
        | none => r) r)

end ConcordBft.ReplicaImp
