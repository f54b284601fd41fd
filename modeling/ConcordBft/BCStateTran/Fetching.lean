import ConcordBft.BCStateTran.Consistency
import ConcordBft.BCStateTran.VirtualBlock
import ConcordBft.Lib.OrderedSet

set_option autoImplicit false

/-! # Fetching blocks and reserved pages (`BCStateTran::processData`)

The replica asks for summaries of checkpoints until `fVal + 1` of them agree. Then it fetches the
missing blocks from the last one down, each of which fixes the digest of the one before it, and at the
end the reserved pages as one virtual block. Chunks of a block are kept until the block is complete. -/

namespace ConcordBft.BCStateTran

open Checked

variable (cfg : Config) (env : Env)

/-! ## Sending requests -/

variable (st : BCStateTran)

/-- Asks all replicas for summaries. -/
def sendAskForCheckpointSummariesMsg : Except Failure BCStateTran := do
  let fs ← st.getFetchingState
  Assert (fs = .GettingCheckpointSummaries)
  let st := { st with lastTimeSentAskForCheckpointSummariesMsg := env.monotonicTimeMilli }
  let (st, msgSeqNum) ← st.uniqueMsgSeqNum env
  let st := { st with lastMsgSeqNum := msgSeqNum }
  pure (st.record (.sendToAllOtherReplicas
    (.askForCheckpointSummaries ⟨msgSeqNum, st.psd.lastStoredCheckpoint + 1⟩)))

/-- The chunk number is sent as a `uint16_t`. -/
def sendFetchBlocksMsg (firstRequiredBlock lastRequiredBlock : ℕ)
    (lastKnownChunkInLastRequiredBlock : Int) : Except Failure BCStateTran :=
  match st.currentSourceReplica with
  | none => .error .assertion
  | some source => do
      let (st, msgSeqNum) ← st.uniqueMsgSeqNum env
      let st := { st with lastMsgSeqNum := msgSeqNum }
      pure (st.record (.send source (.fetchBlocks ⟨msgSeqNum, firstRequiredBlock, lastRequiredBlock,
        (lastKnownChunkInLastRequiredBlock % 2 ^ 16).toNat⟩)))

/-- Asks the source for the pages. -/
def sendFetchResPagesMsg (lastKnownChunkInLastRequiredBlock : Int) : Except Failure BCStateTran :=
  match st.currentSourceReplica with
  | none => .error .assertion
  | some source => do
      let cp ← st.psd.getCheckpointBeingFetched
      let (st, msgSeqNum) ← st.uniqueMsgSeqNum env
      let st := { st with lastMsgSeqNum := msgSeqNum }
      pure (st.record (.send source (.fetchResPages ⟨msgSeqNum, st.psd.lastStoredCheckpoint,
        cp.checkpointNum, (lastKnownChunkInLastRequiredBlock % 2 ^ 16).toNat⟩)))

/-! ## Getting checkpoint summaries -/

/-- Forgets the summaries. -/
def clearInfoAboutGettingCheckpointSummary : BCStateTran :=
  { st with
    lastTimeSentAskForCheckpointSummariesMsg := 0
    retransmissionNumberOfAskForCheckpointSummariesMsg := 0
    summariesCerts := .empty
    numOfSummariesFromOtherReplicas := .empty }

def verifyEmptyInfoAboutGettingCheckpointSummary : Except Failure Unit := do
  Assert (st.lastTimeSentAskForCheckpointSummariesMsg = 0)
  Assert (st.retransmissionNumberOfAskForCheckpointSummariesMsg = 0)
  Assert (st.summariesCerts.size = 0)
  Assert (st.numOfSummariesFromOtherReplicas.size = 0)

/-! ## Pending items -/

/-- Discards all chunks. -/
def clearAllPendingItemsData : BCStateTran :=
  { st with pendingItemDataMsgs := [], totalSizeOfPendingItemDataMsgs := 0 }

/-- The loop of `clearPendingItemsData` over the messages and their total size. -/
def dropItems (untilBlock : ℕ) : List ItemDataMsg → ℕ → Except Failure (List ItemDataMsg × ℕ)
  | [], total => pure ([], total)
  | m :: rest, total =>
    if untilBlock ≤ m.blockNumber then do
      Assert (m.dataSize ≤ total)
      dropItems untilBlock rest (total - m.dataSize)
    else pure (m :: rest, total)

/-- Discards the chunks down to a block. -/
def clearPendingItemsData (untilBlock : ℕ) : Except Failure BCStateTran :=
  if untilBlock = 0 then pure st
  else do
    let (items, total) ← dropItems untilBlock st.pendingItemDataMsgs st.totalSizeOfPendingItemDataMsgs
    pure { st with pendingItemDataMsgs := items, totalSizeOfPendingItemDataMsgs := total }

/-- What the available chunks of the required block are. -/
inductive Chunks where
  | bad
  | partly (maxAvailableChunk : ℕ)
  | full (totalNumberOfChunks : ℕ)
deriving DecidableEq, Repr

/-- The first loop of `getNextFullBlock`. The size of the block is a `uint32_t`. -/
def scanChunks (requiredBlock maxSize : ℕ) :
    ℕ → ℕ → ℕ → List ItemDataMsg → Except Failure Chunks
  | _, maxAvailableChunk, _, [] => pure (.partly maxAvailableChunk)
  | totalNumberOfChunks, maxAvailableChunk, blockSize, msg :: rest =>
    if msg.blockNumber ≠ requiredBlock then pure (.partly maxAvailableChunk)
    else do
      Assert (0 < msg.totalNumberOfChunksInBlock)
      Assert (1 ≤ msg.chunkNumber)
      let totalNumberOfChunks :=
        if totalNumberOfChunks = 0 then msg.totalNumberOfChunksInBlock else totalNumberOfChunks
      let blockSize := (blockSize + msg.dataSize) % 2 ^ 32
      if totalNumberOfChunks ≠ msg.totalNumberOfChunksInBlock ∨ totalNumberOfChunks < msg.chunkNumber ∨
          maxSize < blockSize then pure .bad
      else if maxAvailableChunk + 1 < msg.chunkNumber then pure (.partly maxAvailableChunk)
      else do
        Assert (maxAvailableChunk + 1 = msg.chunkNumber)
        Assert (msg.chunkNumber ≤ totalNumberOfChunks)
        if msg.chunkNumber = totalNumberOfChunks then pure (.full totalNumberOfChunks)
        else scanChunks requiredBlock maxSize totalNumberOfChunks msg.chunkNumber blockSize rest

/-- The second loop of `getNextFullBlock`: the chunks are copied to the buffer and removed. A copy that
    leaves the message or the buffer is out of range. -/
def assembleChunks (requiredBlock maxSize totalNumberOfChunks : ℕ) :
    ℕ → Bytes → List ItemDataMsg → ℕ → Except Failure (Bytes × List ItemDataMsg × ℕ)
  | _, _, [], _ => .error .assertion
  | currentChunk, block, msg :: rest, total => do
      Assert (msg.blockNumber = requiredBlock)
      Assert (1 ≤ msg.chunkNumber)
      Assert (msg.totalNumberOfChunksInBlock = totalNumberOfChunks)
      Assert (currentChunk + 1 = msg.chunkNumber)
      Assert ((block.length + msg.dataSize) % 2 ^ 32 ≤ maxSize)
      require Failure.outOfRange (msg.dataSize ≤ msg.data.length ∧
        block.length + msg.dataSize ≤ cfg.maxItemSize)
      let block := block ++ msg.data.take msg.dataSize
      let total := (total + 2 ^ 32 - msg.dataSize) % 2 ^ 32
      if msg.chunkNumber = totalNumberOfChunks then pure (block, rest, total)
      else assembleChunks requiredBlock maxSize totalNumberOfChunks msg.chunkNumber block rest total

/-- Conversion to `int16_t`. -/
def toInt16 (n : ℕ) : Int := if n % 2 ^ 16 < 2 ^ 15 then (n % 2 ^ 16 : ℕ) else (n % 2 ^ 16 : ℕ) - 2 ^ 16

/-- The outputs of `getNextFullBlock`. -/
structure NextFullBlock where
  badDataDetected : Bool
  lastChunkInRequiredBlock : Int
  block : Option Bytes

/-- The block, if all its chunks have come. -/
def getNextFullBlock (requiredBlock : ℕ) (isVBLock : Bool) :
    Except Failure (BCStateTran × NextFullBlock) := do
  Assert (1 ≤ requiredBlock)
  let maxSize := if isVBLock then cfg.maxVBlockSize else cfg.maxBlockSize
  -- the number of the virtual block is the largest one, and its successor is 0
  let st ← st.clearPendingItemsData ((requiredBlock + 1) % 2 ^ 64)
  match ← scanChunks requiredBlock maxSize 0 0 0 st.pendingItemDataMsgs with
  | .bad => pure (st, ⟨true, 0, none⟩)
  | .partly maxAvailableChunk => pure (st, ⟨false, toInt16 maxAvailableChunk, none⟩)
  | .full totalNumberOfChunks => do
      let (block, items, total) ← assembleChunks cfg requiredBlock maxSize totalNumberOfChunks 0 []
        st.pendingItemDataMsgs st.totalSizeOfPendingItemDataMsgs
      pure ({ st with pendingItemDataMsgs := items, totalSizeOfPendingItemDataMsgs := total },
        ⟨false, toInt16 totalNumberOfChunks, some block⟩)

def checkBlock (blockNum : ℕ) (expectedBlockDigest : STDigest) (block : Bytes) : Except Failure Bool := do
  let blockDigest ← computeDigestOfBlock cfg blockNum block
  pure (blockDigest == expectedBlockDigest)

/-! ## Source replicas -/

/-- Every other replica may be the source. -/
def SetAllReplicasAsPreferred : BCStateTran := { st with preferredReplicas := cfg.peers }

/-- A random member of the preferred replicas. -/
def selectSourceReplica : Except Failure ReplicaId :=
  match st.preferredReplicas[env.random % st.preferredReplicas.length]? with
  | none => .error .assertion
  | some r => pure r

def EnterGettingCheckpointSummariesState : Except Failure BCStateTran := do
  Assert (st.preferredReplicas = [])
  let st := { st with
    currentSourceReplica := none
    timeMilliCurrentSourceReplica := 0
    nextRequiredBlock := 0
    digestOfNextRequiredBlock := Digest.zero }
  let st := st.clearAllPendingItemsData
  let st := { st with psd := st.psd.deleteCheckpointBeingFetched }
  let fs ← st.getFetchingState
  Assert (fs = .GettingCheckpointSummaries)
  st.verifyEmptyInfoAboutGettingCheckpointSummary
  st.sendAskForCheckpointSummariesMsg env

/-- How long the source has been in use. -/
def diffMilli : ℕ :=
  if st.currentSourceReplica = none ∨ env.monotonicTimeMilli < st.timeMilliCurrentSourceReplica then 0
  else env.monotonicTimeMilli - st.timeMilliCurrentSourceReplica

/-- Whether another source is needed. -/
def ShouldReplaceSourceReplica (badDataFromCurrentSourceReplica : Bool) : Bool :=
  st.currentSourceReplica.isNone || badDataFromCurrentSourceReplica ||
    decide (cfg.sourceReplicaReplacementTimeoutMilli < st.diffMilli env)

/-- The current source is replaced by another one. Without a preferred replica, all replicas may be
    asked for blocks, but for reserved pages the checkpoint is given up (the right alternative). -/
def replaceSource (isGettingBlocks : Bool) (st : BCStateTran) :
    Except Failure (BCStateTran ⊕ BCStateTran) := do
  let st := { st with preferredReplicas :=
    match st.currentSourceReplica with
    | none => st.preferredReplicas
    | some source => st.preferredReplicas.filter (· ≠ source) }
  if st.preferredReplicas = [] ∧ isGettingBlocks = false then do
    let st ← st.EnterGettingCheckpointSummariesState env
    pure (.inr st)
  else do
    let st := if st.preferredReplicas = [] then st.SetAllReplicasAsPreferred cfg else st
    let source ← st.selectSourceReplica env
    let st := { st with
      currentSourceReplica := some source
      timeMilliCurrentSourceReplica := env.monotonicTimeMilli }
    pure (.inl st.clearAllPendingItemsData)

/-! ## The next block -/

/-- The number and the digest of the next required block, if they are not known yet. -/
def determineNextRequiredBlock (isGettingBlocks : Bool) (st : BCStateTran) :
    Except Failure BCStateTran :=
  if st.nextRequiredBlock ≠ 0 then pure st
  else do
    Assert (st.digestOfNextRequiredBlock.isZero = true)
    let cp ← st.psd.getCheckpointBeingFetched
    if isGettingBlocks = false then
      pure { st with
        nextRequiredBlock := ID_OF_VBLOCK_RES_PAGES
        digestOfNextRequiredBlock := cp.digestOfResPagesDescriptor }
    else
      let next := st.psd.lastRequiredBlock
      if cp.lastBlock = next then
        pure { st with nextRequiredBlock := next, digestOfNextRequiredBlock := cp.digestOfLastBlock }
      else do
        Assert (st.as.hasBlock (next + 1) = true)
        pure { st with
          nextRequiredBlock := next
          digestOfNextRequiredBlock := st.as.getPrevDigestFromBlock cfg (next + 1) }

/-- A valid block is given to the application; returns whether more blocks are needed. -/
def addBlock (lastChunkInRequiredBlock : Int) (block : Bytes) :
    Except Failure (BCStateTran × Bool) := do
  let st := { st with timeMilliCurrentSourceReplica := env.monotonicTimeMilli }
  Assert (1 ≤ lastChunkInRequiredBlock ∧ 0 < block.length)
  let st := { st with as := st.as.putBlock st.nextRequiredBlock block }.record
    (.putBlock st.psd.checkpointBeingFetched st.nextRequiredBlock block)
  if st.psd.firstRequiredBlock < st.nextRequiredBlock then
    pure ({ st with
      digestOfNextRequiredBlock := st.as.getPrevDigestFromBlock cfg st.nextRequiredBlock
      nextRequiredBlock := st.nextRequiredBlock - 1
      psd := { st.psd with lastRequiredBlock := st.nextRequiredBlock - 1 } }, true)
  else do
    let st := { st with psd := { st.psd with firstRequiredBlock := 0, lastRequiredBlock := 0 } }
    let st := { st.clearAllPendingItemsData with
      nextRequiredBlock := 0
      digestOfNextRequiredBlock := Digest.zero }
    let fs ← st.getFetchingState
    Assert (fs = .GettingMissingResPages)
    let st ← st.sendFetchResPagesMsg env 0
    pure (st, false)

/-! ## Completion -/

/-- The oldest checkpoint to keep: the first one with a descriptor from the given number on. -/
def firstDescFrom (psd : InMemoryDataStore) (last : ℕ) : ℕ → ℕ → ℕ
  | 0, c => c
  | fuel + 1, c =>
    if c < last ∧ psd.hasCheckpointDesc c = false then firstDescFrom psd last fuel (c + 1) else c

/-- What is stored for the new checkpoint. -/
def storeCheckpoint (psd : InMemoryDataStore) : Except Failure (InMemoryDataStore × CheckpointDesc) := do
  let cp ← psd.getCheckpointBeingFetched
  Assert (psd.firstRequiredBlock = 0)
  Assert (psd.lastRequiredBlock = 0)
  Assert (psd.lastStoredCheckpoint < cp.checkpointNum)
  let psd ← psd.setCheckpointDesc cp.checkpointNum cp
  let psd := { psd with lastStoredCheckpoint := cp.checkpointNum }
  pure ({ psd.deleteCheckpointBeingFetched with fetching := false }, cp)

/-- Old checkpoints are deleted; compare `deleteOldCheckpoints`. -/
def deleteCheckpointsBefore (psd : InMemoryDataStore) (checkpointNum : ℕ) :
    Except Failure InMemoryDataStore := do
  let minRelevantCheckpoint :=
    if cfg.maxNumOfStoredCheckpoints ≤ checkpointNum then
      firstDescFrom psd checkpointNum cfg.maxNumOfStoredCheckpoints
        (checkpointNum - cfg.maxNumOfStoredCheckpoints + 1)
    else 0
  let oldFirstStoredCheckpoint := psd.firstStoredCheckpoint
  let psd ← (if 2 ≤ minRelevantCheckpoint ∧ oldFirstStoredCheckpoint < minRelevantCheckpoint then
      (psd.deleteDescOfSmallerCheckpoints minRelevantCheckpoint).deleteCoveredResPageInSmallerCheckpoints
        cfg minRelevantCheckpoint
    else pure psd)
  pure (if oldFirstStoredCheckpoint < minRelevantCheckpoint then
      { psd with firstStoredCheckpoint := minRelevantCheckpoint }
    else psd)

/-- The checkpoint is complete. -/
def completeTransfer (vblock : Bytes) : Except Failure BCStateTran := do
  let psd ← setResPages st.psd (elementsOf vblock)
  let (psd, cp) ← storeCheckpoint psd
  let psd ← deleteCheckpointsBefore cfg psd cp.checkpointNum
  let st := { st with
    psd := psd
    preferredReplicas := []
    currentSourceReplica := none
    timeMilliCurrentSourceReplica := 0
    nextRequiredBlock := 0
    digestOfNextRequiredBlock := Digest.zero }
  let st := st.clearAllPendingItemsData
  let tmp ← st.checkConsistency cfg cfg.pedanticChecks
  Assert (tmp = true)
  pure (st.record (.transferringComplete cp))

/-! ## The loop -/

/-- What one round of the loop of `processData` leads to: it is the last one, or the loop goes on, with
    bad data or not. -/
inductive Round where
  | stop (st : BCStateTran)
  | again (st : BCStateTran) (badDataFromCurrentSourceReplica : Bool)

/-- A round after the source has been selected. -/
def processItems (isGettingBlocks newSourceReplica : Bool) (diff : ℕ) (st : BCStateTran) :
    Except Failure Round := do
  Assert (st.currentSourceReplica ≠ none)
  Assert (st.timeMilliCurrentSourceReplica ≠ 0)
  let st ← st.determineNextRequiredBlock cfg isGettingBlocks
  Assert (st.nextRequiredBlock ≠ 0)
  Assert (st.digestOfNextRequiredBlock.isZero = false)
  let (st, next) ← st.getNextFullBlock cfg st.nextRequiredBlock (!isGettingBlocks)
  match next.block with
  | none =>
    if next.badDataDetected then pure (.again st true)
    else if newSourceReplica = true ∨ cfg.fetchRetransmissionTimeoutMilli < diff then
      if isGettingBlocks then do
        Assert (st.psd.lastRequiredBlock = st.nextRequiredBlock)
        let st ← st.sendFetchBlocksMsg env st.psd.firstRequiredBlock st.nextRequiredBlock
          next.lastChunkInRequiredBlock
        pure (.stop st)
      else do
        let st ← st.sendFetchResPagesMsg env next.lastChunkInRequiredBlock
        pure (.stop st)
    else pure (.stop st)
  | some block =>
    if isGettingBlocks then do
      if ← checkBlock cfg st.nextRequiredBlock st.digestOfNextRequiredBlock block then do
        let (st, more) ← st.addBlock cfg env next.lastChunkInRequiredBlock block
        pure (if more then .again st false else .stop st)
      else pure (.again st true)
    else do
      if ← checkVirtualBlockOfResPages cfg st.psd st.digestOfNextRequiredBlock block then do
        let st ← { st with timeMilliCurrentSourceReplica := env.monotonicTimeMilli }.completeTransfer
          cfg block
        pure (.stop st)
      else pure (.again st true)

/-- One round of the loop. -/
def processRound (isGettingBlocks badDataFromCurrentSourceReplica : Bool) (st : BCStateTran) :
    Except Failure Round := do
  let diff := st.diffMilli env
  if st.ShouldReplaceSourceReplica cfg env badDataFromCurrentSourceReplica then do
    match ← st.replaceSource cfg env isGettingBlocks with
    | .inr st => pure (.stop st)
    | .inl st => st.processItems cfg env isGettingBlocks true diff
  else st.processItems cfg env isGettingBlocks false diff

/-- Every round but the last two takes chunks from the pending items. -/
def processRounds (isGettingBlocks : Bool) :
    ℕ → Bool → BCStateTran → Except Failure BCStateTran
  | 0, _, _ => .error .notModelled
  | fuel + 1, badData, st => do
      match ← st.processRound cfg env isGettingBlocks badData with
      | .stop st => pure st
      | .again st badData => processRounds isGettingBlocks fuel badData st

def processData : Except Failure BCStateTran := do
  let fs ← st.getFetchingState
  Assert (fs = .GettingMissingBlocks ∨ fs = .GettingMissingResPages)
  Assert (st.preferredReplicas ≠ [])
  Assert (st.totalSizeOfPendingItemDataMsgs ≤ cfg.maxPendingDataFromSourceReplica)
  let isGettingBlocks := decide (fs = .GettingMissingBlocks)
  Assert (isGettingBlocks = false ∨ st.psd.lastRequiredBlock ≠ 0)
  Assert (isGettingBlocks = true ∨ st.psd.lastRequiredBlock = 0)
  st.processRounds cfg env isGettingBlocks (st.pendingItemDataMsgs.length + 2) false

end ConcordBft.BCStateTran
