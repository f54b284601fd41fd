import ConcordBft.BCStateTran.DataStore
import ConcordBft.MsgsCertificate

set_option autoImplicit false

/-! # Messages and state of the state transfer (`BCStateTran.hpp`, `Messages.hpp`)

The application is the list of its blocks, by number. What the state transfer does to the outside,
messages, new blocks and completed transfers, is recorded in `trace`.

The fields of messages are natural numbers without a bound, so every message that fits in the
source's fields is among them. A message that is too short for its type is not modelled: it is
dropped. The arithmetic on sizes and chunk numbers, which may wrap around, is that of the source's
types. -/

namespace ConcordBft

namespace BCStateTran

open Checked

/-! ## The application (`IAppState`) -/

/-- The blocks of the application, by their numbers. -/
abbrev AppState := OrderedMap ℕ Bytes

namespace AppState

variable (cfg : Config) (as : AppState) (blockId : ℕ)

/-- Whether the application has a block. -/
def hasBlock : Bool := as.contains blockId

/-- A block of the application. -/
def getBlock : Option Bytes := as.find? blockId

/-- The stored digest of the previous block; the zero digest if there is no such block. -/
def getPrevDigestFromBlock : STDigest :=
  ((as.find? blockId).map cfg.prevDigestOf).getD Digest.zero

/-- The application stores a block. -/
def putBlock (block : Bytes) : AppState := as.insert blockId block

/-- The last number of the blocks that follow block `n` without a hole. -/
def reachableFrom (n : ℕ) : List (ℕ × Bytes) → ℕ
  | [] => n
  | e :: rest => if e.1 = n + 1 then reachableFrom (n + 1) rest else n

def getLastReachableBlockNum : ℕ := reachableFrom 0 as.entries

/-- The largest number of a block, or 0. -/
def getLastBlockNum : ℕ := (as.entries.getLast?.map (·.1)).getD 0

end AppState

/-! ## Messages -/

/-- Asks for summaries of checkpoints. -/
structure AskForCheckpointSummariesMsg where
  msgSeqNum : ℕ
  minRelevantCheckpointNum : ℕ
deriving DecidableEq, Repr

/-- The summary of a stored checkpoint. -/
structure CheckpointSummaryMsg where
  checkpointNum : ℕ
  lastBlock : ℕ
  digestOfLastBlock : STDigest
  digestOfResPagesDescriptor : STDigest
  requestMsgSeqNum : ℕ
deriving DecidableEq, Repr

/-- Asks for blocks, the last one first. -/
structure FetchBlocksMsg where
  msgSeqNum : ℕ
  firstRequiredBlock : ℕ
  lastRequiredBlock : ℕ
  lastKnownChunkInLastRequiredBlock : ℕ
deriving DecidableEq, Repr

/-- Asks for the pages that changed between two checkpoints. -/
structure FetchResPagesMsg where
  msgSeqNum : ℕ
  lastCheckpointKnownToRequester : ℕ
  requiredCheckpointNum : ℕ
  lastKnownChunk : ℕ
deriving DecidableEq, Repr

/-- `data` is all that follows the header in the received message: `dataSize` is only a field. -/
structure ItemDataMsg where
  requestMsgSeqNum : ℕ
  blockNumber : ℕ
  totalNumberOfChunksInBlock : ℕ
  chunkNumber : ℕ
  dataSize : ℕ
  data : Bytes
deriving DecidableEq, Repr

/-- `sizeof(ItemDataMsg) - 1` -/
def sizeOfItemDataMsgHeader : ℕ := 26

namespace ItemDataMsg

/-- `size()`, a `uint32_t`. -/
def size (m : ItemDataMsg) : ℕ := (sizeOfItemDataMsgHeader + m.dataSize) % 2 ^ 32

/-- The length of the received message. -/
def msgLen (m : ItemDataMsg) : ℕ := sizeOfItemDataMsgHeader + m.data.length

/-- `compareItemDataMsg`: larger blocks first, and the chunks of a block in order. -/
def before (l r : ItemDataMsg) : Bool :=
  if l.blockNumber ≠ r.blockNumber then decide (r.blockNumber < l.blockNumber)
  else decide (l.chunkNumber < r.chunkNumber)

end ItemDataMsg

/-- The messages of the module. -/
inductive Msg where
  | askForCheckpointSummaries (m : AskForCheckpointSummariesMsg)
  | checkpointSummary (m : CheckpointSummaryMsg)
  | fetchBlocks (m : FetchBlocksMsg)
  | fetchResPages (m : FetchResPagesMsg)
  | rejectFetching (requestMsgSeqNum : ℕ)
  | itemData (m : ItemDataMsg)
deriving DecidableEq, Repr

/-- What the module does to the outside. -/
inductive Action where
  | send (dest : ReplicaId) (m : Msg)
  | sendToAllOtherReplicas (m : Msg)
  /-- A block is given to the application while checkpoint `cp` is fetched. -/
  | putBlock (cp : CheckpointDesc) (blockNum : ℕ) (block : Bytes)
  /-- `onTransferringComplete` -/
  | transferringComplete (cp : CheckpointDesc)
deriving DecidableEq, Repr

/-! ## Constants -/

/-- `ID_OF_VBLOCK_RES_PAGES` -/
def ID_OF_VBLOCK_RES_PAGES : ℕ := 2 ^ 64 - 1

/-- The size of the cache. -/
def kMaxVBlocksInCache : ℕ := 28

def kResetCount_AskForCheckpointSummaries : ℕ := 4

/-- The packed `HeaderOfVirtualBlock`. -/
def sizeOfHeaderOfVirtualBlock : ℕ := 12

/-- The packed `ElementOfVirtualBlock`, with its page. -/
def elementSize : ℕ := 44 + kSizeOfReservedPage

namespace Config

variable (cfg : Config)

/-- `calcMaxVBlockSize` -/
def maxVBlockSize : ℕ :=
  (sizeOfHeaderOfVirtualBlock + elementSize * cfg.maxNumOfReservedPages) % 2 ^ 32

/-- `calcMaxItemSize` -/
def maxItemSize : ℕ := max cfg.maxBlockSize cfg.maxVBlockSize

/-- `calcMaxNumOfChunksInBlock`, a `uint16_t`. -/
def chunksOf (size : ℕ) : ℕ :=
  (size / cfg.maxChunkSize + if size % cfg.maxChunkSize = 0 then 0 else 1) % 2 ^ 16

/-- The chunks of a largest block. -/
def maxNumOfChunksInAppBlock : ℕ := cfg.chunksOf cfg.maxBlockSize

/-- The chunks of a largest virtual block. -/
def maxNumOfChunksInVBlock : ℕ := cfg.chunksOf cfg.maxItemSize

/-- `replicas_` without the replica itself, in increasing order. -/
def peers : List ReplicaId := (List.range cfg.numberOfReplicas).filter (· ≠ cfg.myReplicaId)

/-- The certificates of the checkpoint summaries. -/
def summaryParams : CertificateParams CheckpointSummaryMsg where
  SelfTrust := false
  SelfIsRequired := false
  numOfReps := cfg.numberOfReplicas
  maxFails := cfg.fVal
  required := cfg.fVal + 1
  selfId := cfg.myReplicaId
  equivalent := fun a b => decide (a = b)

end Config

/-! ## The state -/

/-- The clocks and the random generator while one event is handled. -/
structure Env where
  /-- `getMonotonicTimeMilli()` -/
  monotonicTimeMilli : ℕ
  /-- milliseconds of the system clock -/
  systemTimeMilli : ℕ
  /-- `randomGen_()` -/
  random : ℕ
deriving Repr

/-- The phases of a transfer. -/
inductive FetchingState where
  | NotFetching
  | GettingCheckpointSummaries
  | GettingMissingBlocks
  | GettingMissingResPages
deriving DecidableEq, Repr

/-- A virtual block in the cache, with the checkpoint it is for and the last checkpoint that its
    requester knows. -/
@[ext]
structure DescOfVBlockForResPages where
  checkpointNum : ℕ
  lastCheckpointKnownToRequester : ℕ
deriving DecidableEq, Repr

instance : LinearOrder DescOfVBlockForResPages :=
  LinearOrder.lift' (fun d => toLex (d.checkpointNum, d.lastCheckpointKnownToRequester))
    fun a b h => by
      obtain ⟨hnum, hlast⟩ := Prod.mk.inj (toLex.injective h)
      exact DescOfVBlockForResPages.ext hnum hlast

end BCStateTran

open BCStateTran in
/-- `currentSourceReplica = none` is `NO_REPLICA`. A replica without an entry in
    `lastMsgSeqNumOfReplicas` has number 0 there. -/
structure BCStateTran where
  psd : InMemoryDataStore := {}
  as : AppState := .empty
  lastMilliOfUniqueFetchID : ℕ := 0
  lastCountOfUniqueFetchID : ℕ := 0
  lastMsgSeqNum : ℕ := 0
  lastMsgSeqNumOfReplicas : ReplicaId → ℕ := fun _ => 0
  cacheOfVirtualBlockForResPages : OrderedMap DescOfVBlockForResPages Bytes := .empty
  lastTimeSentAskForCheckpointSummariesMsg : ℕ := 0
  retransmissionNumberOfAskForCheckpointSummariesMsg : ℕ := 0
  summariesCerts : OrderedMap ℕ (MsgsCertificate CheckpointSummaryMsg) := .empty
  numOfSummariesFromOtherReplicas : OrderedMap ReplicaId ℕ := .empty
  preferredReplicas : List ReplicaId := []
  currentSourceReplica : Option ReplicaId := none
  timeMilliCurrentSourceReplica : ℕ := 0
  nextRequiredBlock : ℕ := 0
  digestOfNextRequiredBlock : STDigest := Digest.zero
  pendingItemDataMsgs : List ItemDataMsg := []
  totalSizeOfPendingItemDataMsgs : ℕ := 0
  trace : List Action := []

namespace BCStateTran

open Checked

/-! ## The fetching state -/

/-- Whether a transfer is going on. -/
def isFetching (st : BCStateTran) : Bool := st.psd.fetching

/-- The phase, read off what is stored. -/
def getFetchingState (st : BCStateTran) : Except Failure FetchingState :=
  if st.psd.fetching = false then pure .NotFetching
  else do
    Assert (st.psd.numOfAllPendingResPage = 0)
    if st.psd.hasCheckpointBeingFetched = false then pure .GettingCheckpointSummaries
    else if 0 < st.psd.lastRequiredBlock then pure .GettingMissingBlocks
    else do
      Assert (st.psd.firstRequiredBlock = 0)
      pure .GettingMissingResPages

def record (st : BCStateTran) (a : Action) : BCStateTran := { st with trace := a :: st.trace }

/-! ## Digests -/

def computeDigestOfBlock (cfg : Config) (blockNum : ℕ) (block : Bytes) : Except Failure STDigest := do
  Assert (0 < blockNum)
  Assert (0 < block.length)
  pure (cfg.digestOfBlock blockNum block)

/-! ## Unique message IDs -/

/-- The counter of one millisecond has 22 bits. -/
def uniqueMsgSeqNum (env : Env) (st : BCStateTran) : Except Failure (BCStateTran × ℕ) := do
  let st :=
    if st.lastMilliOfUniqueFetchID < env.systemTimeMilli then
      { st with lastMilliOfUniqueFetchID := env.systemTimeMilli, lastCountOfUniqueFetchID := 0 }
    else if st.lastCountOfUniqueFetchID = 0x3FFFFF then
      { st with
        lastMilliOfUniqueFetchID := st.lastMilliOfUniqueFetchID + 1
        lastCountOfUniqueFetchID := st.lastCountOfUniqueFetchID + 1 }
    else { st with lastCountOfUniqueFetchID := st.lastCountOfUniqueFetchID + 1 }
  Assert (st.lastCountOfUniqueFetchID ≤ 0x3FFFFF)
  pure (st, st.lastMilliOfUniqueFetchID * 2 ^ 22 % 2 ^ 64 + st.lastCountOfUniqueFetchID)

def checkValidityAndSaveMsgSeqNum (cfg : Config) (env : Env) (st : BCStateTran)
    (replicaId : ReplicaId) (msgSeqNum : ℕ) : Bool × BCStateTran :=
  let milliMsgTime := msgSeqNum / 2 ^ 22
  let milliNow := env.systemTimeMilli
  let diffMilli := if milliNow < milliMsgTime then milliMsgTime - milliNow else milliNow - milliMsgTime
  if cfg.maxAcceptableMsgDelayMilli < diffMilli then (false, st)
  else if msgSeqNum ≤ st.lastMsgSeqNumOfReplicas replicaId then (false, st)
  else (true, { st with
    lastMsgSeqNumOfReplicas := Function.update st.lastMsgSeqNumOfReplicas replicaId msgSeqNum })

end BCStateTran

end ConcordBft
