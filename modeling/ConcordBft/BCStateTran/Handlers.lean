import ConcordBft.BCStateTran.Checkpoints
import ConcordBft.BCStateTran.Fetching
import ConcordBft.Lib.Machine

set_option autoImplicit false

/-! # Messages, timers and runs of the state transfer (`BCStateTran::onMessage`)

A run ends when a check fails. -/

namespace ConcordBft

namespace MsgsCertificate

variable {T : Type}

def bestCorrectMsg (p : CertificateParams T) (c : MsgsCertificate T) : Option T :=
  if c.hasTrustedSelfClass = true ∨ p.maxFails + 1 ≤ c.sizeOfBestClass then
    (c.bestClass.bind fun i => c.msgClasses[i]?).bind fun cls =>
      c.msgsFromReplicas.lookup cls.representativeReplica
  else none

/-- The message of a replica. -/
def getMsgFromReplica (c : MsgsCertificate T) (replicaId : ReplicaId) : Option T :=
  c.msgsFromReplicas.lookup replicaId

end MsgsCertificate

namespace BCStateTran

open Checked

variable (cfg : Config) (env : Env)

/-! ## Starting and time -/

variable (st : BCStateTran)

/-- The replica asks for a state transfer. -/
def startCollectingState : Except Failure BCStateTran := do
  Assert (st.isFetching = false)
  st.verifyEmptyInfoAboutGettingCheckpointSummary
  let st := { st with psd := { st.psd.deleteAllPendingPages with fetching := true } }
  st.sendAskForCheckpointSummariesMsg env

def onTimer : Except Failure BCStateTran := do
  match ← st.getFetchingState with
  | .NotFetching => pure st
  | .GettingCheckpointSummaries =>
    if cfg.checkpointSummariesRetransmissionTimeoutMilli <
        env.monotonicTimeMilli - st.lastTimeSentAskForCheckpointSummariesMsg then
      let st := { st with retransmissionNumberOfAskForCheckpointSummariesMsg :=
        st.retransmissionNumberOfAskForCheckpointSummariesMsg + 1 }
      let st := if kResetCount_AskForCheckpointSummaries <
          st.retransmissionNumberOfAskForCheckpointSummariesMsg then
        st.clearInfoAboutGettingCheckpointSummary
      else st
      st.sendAskForCheckpointSummariesMsg env
    else pure st
  | _ => st.processData cfg env

/-! ## Answers of a replica that is not fetching -/

def onAskForCheckpointSummariesMsg (m : AskForCheckpointSummariesMsg) (replicaId : ReplicaId) :
    Except Failure BCStateTran := do
  Assert (st.psd.fetching = false)
  if m.minRelevantCheckpointNum = 0 ∨ m.msgSeqNum = 0 then pure st
  else
    let (valid, st) := st.checkValidityAndSaveMsgSeqNum cfg env replicaId m.msgSeqNum
    if valid = false ∨ st.psd.lastStoredCheckpoint < m.minRelevantCheckpointNum then pure st
    else
      let toCheckpoint := st.psd.lastStoredCheckpoint
      let fromCheckpoint := max m.minRelevantCheckpointNum st.psd.firstStoredCheckpoint
      let fromCheckpoint := if cfg.maxNumOfStoredCheckpoints < toCheckpoint then
          max fromCheckpoint (toCheckpoint - cfg.maxNumOfStoredCheckpoints + 1)
        else fromCheckpoint
      (countDown toCheckpoint fromCheckpoint).foldlM (fun st i =>
        if st.psd.hasCheckpointDesc i then do
          let c ← st.psd.getCheckpointDesc i
          pure (st.record (.send replicaId (.checkpointSummary
            ⟨i, c.lastBlock, c.digestOfLastBlock, c.digestOfResPagesDescriptor, m.msgSeqNum⟩)))
        else pure st) st

/-- The number of chunks of a block; a smaller chunk may be the last one. -/
def numOfChunks (size : ℕ) : ℕ :=
  size / cfg.maxChunkSize + if size % cfg.maxChunkSize ≠ 0 then 1 else 0

/-- The message with a chunk of a block. The field of the number of chunks is a `uint16_t`. -/
def chunkMsg (requestMsgSeqNum blockNumber : ℕ) (block : Bytes) (chunk : ℕ) : ItemDataMsg :=
  let data := (block.drop ((chunk - 1) * cfg.maxChunkSize)).take cfg.maxChunkSize
  ⟨requestMsgSeqNum, blockNumber, numOfChunks cfg block.length % 2 ^ 16, chunk, data.length, data⟩

/-- The loop of `onMessage(FetchResPagesMsg*)`; at most `maxNumberOfChunksInBatch` chunks are sent,
    and at least one. Chunk numbers are `uint16_t`; there is no chunk 0 to copy. -/
def sendChunks (replicaId : ReplicaId) (requestMsgSeqNum : ℕ) (vblock : Bytes) :
    ℕ → ℕ → BCStateTran → Except Failure BCStateTran
  | 0, _, st => pure st
  | numOfChunksLeft + 1, nextChunk, st => do
      require Failure.outOfRange (1 ≤ nextChunk)
      let msg := chunkMsg cfg requestMsgSeqNum ID_OF_VBLOCK_RES_PAGES vblock nextChunk
      Assert (0 < msg.dataSize)
      let st := st.record (.send replicaId (.itemData msg))
      if (nextChunk + 1) % 2 ^ 16 ≤ numOfChunks cfg vblock.length then
        sendChunks replicaId requestMsgSeqNum vblock numOfChunksLeft ((nextChunk + 1) % 2 ^ 16) st
      else pure st

/-- The loop of `onMessage(FetchBlocksMsg*)`: the chunks of a block and then of the ones before it. -/
def sendBlocks (replicaId : ReplicaId) (m : FetchBlocksMsg) :
    ℕ → ℕ → ℕ → BCStateTran → Except Failure BCStateTran
  | 0, _, _, st => pure st
  | numOfChunksLeft + 1, nextBlock, nextChunk, st =>
    match st.as.getBlock nextBlock with
    | none => .error .assertion
    | some block => do
        Assert (0 < block.length)
        require Failure.outOfRange (1 ≤ nextChunk)
        let msg := chunkMsg cfg m.msgSeqNum nextBlock block nextChunk
        Assert (0 < msg.dataSize)
        let st := st.record (.send replicaId (.itemData msg))
        if (nextChunk + 1) % 2 ^ 16 ≤ numOfChunks cfg block.length then
          sendBlocks replicaId m numOfChunksLeft nextBlock ((nextChunk + 1) % 2 ^ 16) st
        else if nextBlock - 1 < m.firstRequiredBlock then pure st
        else sendBlocks replicaId m numOfChunksLeft (nextBlock - 1) 1 st

def onFetchBlocksMsg (m : FetchBlocksMsg) (replicaId : ReplicaId) : Except Failure BCStateTran :=
  if m.msgSeqNum = 0 ∨ m.firstRequiredBlock = 0 ∨ m.lastRequiredBlock < m.firstRequiredBlock then
    pure st
  else do
    let (valid, st) := st.checkValidityAndSaveMsgSeqNum cfg env replicaId m.msgSeqNum
    if valid = false then pure st
    else do
      let fs ← st.getFetchingState
      if fs ≠ .NotFetching ∨ st.as.getLastReachableBlockNum < m.lastRequiredBlock then
        pure (st.record (.send replicaId (.rejectFetching m.msgSeqNum)))
      else
        match st.as.getBlock m.lastRequiredBlock with
        | none => .error .assertion
        | some block => do
            Assert (0 < block.length)
            let nextChunk := (m.lastKnownChunkInLastRequiredBlock + 1) % 2 ^ 16
            if numOfChunks cfg block.length < nextChunk then pure st
            else
              sendBlocks cfg replicaId m (max 1 cfg.maxNumberOfChunksInBatch) m.lastRequiredBlock
                nextChunk st

/-! ### The cache of virtual blocks -/

/-- A virtual block that was made before. -/
def getVBlockFromCache (desc : DescOfVBlockForResPages) : Except Failure (Option Bytes) :=
  match st.cacheOfVirtualBlockForResPages.find? desc with
  | none => pure none
  | some vBlock => do
      Assert (desc.lastCheckpointKnownToRequester = BCStateTran.lastCheckpointKnownToRequester vBlock)
      pure (some vBlock)

/-- A full cache loses its smallest item. -/
def setVBlockInCache (desc : DescOfVBlockForResPages) (vBlock : Bytes) :
    Except Failure BCStateTran := do
  Assert (st.cacheOfVirtualBlockForResPages.contains desc = false)
  let cache := if kMaxVBlocksInCache ≤ st.cacheOfVirtualBlockForResPages.size then
      st.cacheOfVirtualBlockForResPages.ofSublist _ (List.drop_sublist 1 _)
    else st.cacheOfVirtualBlockForResPages
  let cache := cache.insert desc vBlock
  Assert (cache.size ≤ kMaxVBlocksInCache)
  pure { st with cacheOfVirtualBlockForResPages := cache }

/-- The virtual block from the cache, or a new one. -/
def findOrCreateVBlock (desc : DescOfVBlockForResPages) : Except Failure (BCStateTran × Bytes) := do
  match ← st.getVBlockFromCache desc with
  | some vblock => pure (st, vblock)
  | none => do
      let vblock ← createVBlock cfg st.psd desc
      let st ← st.setVBlockInCache desc vblock
      pure (st, vblock)

def onFetchResPagesMsg (m : FetchResPagesMsg) (replicaId : ReplicaId) :
    Except Failure BCStateTran :=
  if m.msgSeqNum = 0 ∨ m.requiredCheckpointNum = 0 then pure st
  else do
    let (valid, st) := st.checkValidityAndSaveMsgSeqNum cfg env replicaId m.msgSeqNum
    if valid = false then pure st
    else do
      let fs ← st.getFetchingState
      if fs ≠ .NotFetching ∨ st.psd.hasCheckpointDesc m.requiredCheckpointNum = false then
        pure (st.record (.send replicaId (.rejectFetching m.msgSeqNum)))
      else do
        let (st, vblock) ← st.findOrCreateVBlock cfg
          ⟨m.requiredCheckpointNum, m.lastCheckpointKnownToRequester⟩
        Assert (sizeOfHeaderOfVirtualBlock < getSizeOfVirtualBlock vblock)
        Assert (checkStructureOfVirtualBlock vblock = true)
        let nextChunk := (m.lastKnownChunk + 1) % 2 ^ 16
        if numOfChunks cfg vblock.length < nextChunk then pure st
        else sendChunks cfg replicaId m.msgSeqNum vblock (max 1 cfg.maxNumberOfChunksInBatch) nextChunk st

/-! ## Messages to a replica that is fetching -/

/-- The certified checkpoint. -/
def CheckpointSummaryMsg.toDesc (m : CheckpointSummaryMsg) : CheckpointDesc :=
  ⟨m.checkpointNum, m.lastBlock, m.digestOfLastBlock, m.digestOfResPagesDescriptor⟩

/-- The blocks that are missing up to the last one of the checkpoint. -/
def setRequiredBlocks (lastBlock : ℕ) : Except Failure BCStateTran :=
  let lastReachableBlockNum := st.as.getLastReachableBlockNum
  if lastReachableBlockNum < lastBlock then
    pure { st with psd := { st.psd with
      firstRequiredBlock := lastReachableBlockNum + 1
      lastRequiredBlock := lastBlock } }
  else do
    Assert (lastBlock = lastReachableBlockNum)
    Assert (st.psd.firstRequiredBlock = 0)
    Assert (st.psd.lastRequiredBlock = 0)
    pure st

/-- The steps of `onMessage(CheckpointSummaryMsg*)` once a certificate is complete. -/
def startFetching (cert : MsgsCertificate CheckpointSummaryMsg) : Except Failure BCStateTran :=
  match cert.bestCorrectMsg cfg.summaryParams with
  | none => .error .assertion
  | some checkSummary => do
      Assert (st.preferredReplicas = [])
      Assert (st.currentSourceReplica = none)
      Assert (st.timeMilliCurrentSourceReplica = 0)
      Assert (st.nextRequiredBlock = 0)
      Assert (st.digestOfNextRequiredBlock.isZero = true)
      Assert (st.pendingItemDataMsgs = [])
      Assert (st.totalSizeOfPendingItemDataMsgs = 0)
      let preferred := (List.range cfg.numberOfReplicas).filter fun r =>
        decide (cert.getMsgFromReplica r = some checkSummary)
      Assert (cfg.fVal + 1 ≤ preferred.length)
      let newCheckpoint := checkSummary.toDesc
      let psd ← st.psd.setCheckpointBeingFetched newCheckpoint
      let st := { st.clearInfoAboutGettingCheckpointSummary with
        preferredReplicas := preferred
        psd := psd
        lastMsgSeqNum := 0 }
      let st ← st.setRequiredBlocks newCheckpoint.lastBlock
      st.processData cfg env

def onCheckpointSummaryMsg (m : CheckpointSummaryMsg) (replicaId : ReplicaId) :
    Except Failure BCStateTran := do
  let fs ← st.getFetchingState
  Assert (fs = .GettingCheckpointSummaries)
  let numOfMsgsFromSender := (st.numOfSummariesFromOtherReplicas.find? replicaId).getD 0
  if m.checkpointNum = 0 ∨ m.digestOfResPagesDescriptor.isZero = true ∨ m.requestMsgSeqNum = 0 then
    pure st
  else if m.requestMsgSeqNum ≠ st.lastMsgSeqNum ∨ m.checkpointNum ≤ st.psd.lastStoredCheckpoint then
    pure st
  else if cfg.maxNumOfStoredCheckpoints + 1 ≤ numOfMsgsFromSender then pure st
  else do
    let cert := (st.summariesCerts.find? m.checkpointNum).getD {}
    let (used, cert) := cert.addMsg cfg.summaryParams m replicaId
    let st := { st with summariesCerts := st.summariesCerts.insert m.checkpointNum cert }
    let st := if used then
        { st with numOfSummariesFromOtherReplicas :=
            st.numOfSummariesFromOtherReplicas.insert replicaId (numOfMsgsFromSender + 1) }
      else st
    if cert.isComplete = false then pure st else st.startFetching cfg env cert

def onRejectFetchingMsg (requestMsgSeqNum : ℕ) (replicaId : ReplicaId) :
    Except Failure BCStateTran := do
  let fs ← st.getFetchingState
  Assert (fs = .GettingMissingBlocks ∨ fs = .GettingMissingResPages)
  Assert (st.preferredReplicas ≠ [])
  if st.currentSourceReplica ≠ some replicaId ∨ st.lastMsgSeqNum ≠ requestMsgSeqNum then pure st
  else do
    Assert (replicaId ∈ st.preferredReplicas)
    let st := { st with
      preferredReplicas := st.preferredReplicas.filter (· ≠ replicaId)
      currentSourceReplica := none }
    let st := st.clearAllPendingItemsData
    if st.preferredReplicas ≠ [] then st.processData cfg env
    else if fs = .GettingMissingBlocks then (st.SetAllReplicasAsPreferred cfg).processData cfg env
    else st.EnterGettingCheckpointSummariesState env

/-- Is the chunk one that the replica has asked for? The sum of the sizes is a `uint32_t`. -/
def isRelevantItem (fs : FetchingState) (st : BCStateTran) (m : ItemDataMsg) (replicaId : ReplicaId) :
    Bool :=
  decide (st.currentSourceReplica = some replicaId) && m.requestMsgSeqNum == st.lastMsgSeqNum &&
    decide ((m.dataSize + st.totalSizeOfPendingItemDataMsgs) % 2 ^ 32 ≤
      cfg.maxPendingDataFromSourceReplica) &&
    if fs = .GettingMissingBlocks then
      decide (m.blockNumber ≤ st.psd.lastRequiredBlock) &&
        decide (st.psd.firstRequiredBlock ≤ m.blockNumber) &&
        decide (st.psd.lastRequiredBlock ≤ m.blockNumber + cfg.maxNumberOfChunksInBatch + 1)
    else m.blockNumber == ID_OF_VBLOCK_RES_PAGES

/-- A chunk of the block that is fetched. -/
def onItemDataMsg (m : ItemDataMsg) (replicaId : ReplicaId) : Except Failure BCStateTran := do
  let fs ← st.getFetchingState
  Assert (fs = .GettingMissingBlocks ∨ fs = .GettingMissingResPages)
  let maxNumOfChunksInBlock := if fs = .GettingMissingBlocks then cfg.maxNumOfChunksInAppBlock
    else cfg.maxNumOfChunksInVBlock
  if m.msgLen < m.size ∨ m.requestMsgSeqNum = 0 ∨ m.blockNumber = 0 ∨
      m.totalNumberOfChunksInBlock = 0 ∨ maxNumOfChunksInBlock < m.totalNumberOfChunksInBlock ∨
      m.chunkNumber = 0 ∨ m.dataSize = 0 then pure st
  else do
    Assert (fs = .GettingMissingBlocks ∨ st.psd.firstRequiredBlock = 0)
    Assert (fs = .GettingMissingBlocks ∨ st.psd.lastRequiredBlock = 0)
    if st.isRelevantItem cfg fs m replicaId = false then pure st
    else do
      Assert (replicaId ∈ st.preferredReplicas)
      let items := OrderedSet.insert ItemDataMsg.before m st.pendingItemDataMsgs
      if items.length = st.pendingItemDataMsgs.length then pure st
      else
        let total := (st.totalSizeOfPendingItemDataMsgs + m.dataSize) % 2 ^ 32
        { st with pendingItemDataMsgs := items, totalSizeOfPendingItemDataMsgs := total }.processData
          cfg env

def handleStateTransferMessage (msg : Msg) (senderId : ReplicaId) : Except Failure BCStateTran :=
  if senderId = cfg.myReplicaId ∨ cfg.isIdOfReplica senderId = false then pure st
  else do
    let fs ← st.getFetchingState
    match msg with
    | .askForCheckpointSummaries m =>
      if fs = .NotFetching then st.onAskForCheckpointSummariesMsg cfg env m senderId else pure st
    | .checkpointSummary m =>
      if fs = .GettingCheckpointSummaries then st.onCheckpointSummaryMsg cfg env m senderId else pure st
    | .fetchBlocks m => st.onFetchBlocksMsg cfg env m senderId
    | .fetchResPages m => st.onFetchResPagesMsg cfg env m senderId
    | .rejectFetching requestMsgSeqNum =>
      if fs = .GettingMissingBlocks ∨ fs = .GettingMissingResPages then
        st.onRejectFetchingMsg cfg env requestMsgSeqNum senderId
      else pure st
    | .itemData m =>
      if fs = .GettingMissingBlocks ∨ fs = .GettingMissingResPages then
        st.onItemDataMsg cfg env m senderId
      else pure st

/-! ## Events -/

/-- What happens to the module. -/
inductive Event where
  | createCheckpointOfCurrentState (checkpointNumber : ℕ)
  | markCheckpointAsStable (checkpointNumber : ℕ)
  | saveReservedPage (reservedPageId : ℕ) (inReservedPage : Bytes)
  | zeroReservedPage (reservedPageId : ℕ)
  /-- The application appends a block to its blocks; it does so only when no state is fetched. -/
  | appendBlock (block : Bytes)
  | startCollectingState
  | onTimer
  | handleStateTransferMessage (msg : Msg) (senderId : ReplicaId)

/-- The application adds a block. -/
def appendBlock (block : Bytes) : BCStateTran :=
  if st.isFetching then st
  else { st with as := st.as.putBlock (st.as.getLastBlockNum + 1) block }

/-- One event. -/
def step : Event → Except Failure BCStateTran
  | .createCheckpointOfCurrentState checkpointNumber =>
    st.createCheckpointOfCurrentState cfg checkpointNumber
  | .markCheckpointAsStable checkpointNumber => st.markCheckpointAsStable cfg checkpointNumber
  | .saveReservedPage reservedPageId inReservedPage =>
    st.saveReservedPage cfg reservedPageId inReservedPage
  | .zeroReservedPage reservedPageId => st.zeroReservedPage cfg reservedPageId
  | .appendBlock block => pure (st.appendBlock block)
  | .startCollectingState => st.startCollectingState env
  | .onTimer => st.onTimer cfg env
  | .handleStateTransferMessage msg senderId => st.handleStateTransferMessage cfg env msg senderId

/-- The next state, if no check fails. -/
def next (i : Env × Event) : Option BCStateTran := (st.step cfg i.1 i.2).toOption

end BCStateTran

end ConcordBft
