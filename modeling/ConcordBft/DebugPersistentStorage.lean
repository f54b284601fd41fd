import ConcordBft.MsgsCertificate
import ConcordBft.PartialProofsSet
import ConcordBft.SequenceWithActiveWindow

set_option autoImplicit false

/-! # The storage of a replica (`PersistentStorage.hpp`, `DebugPersistentStorage.cpp`)

A replica writes what it needs after a restart in write transactions, and reads it back outside of
them. The storage keeps scalars, three descriptors and two windows that move with the last stable
sequence number. The setters check the order in which a replica may write; a message is cloned when it
is written and when it is read, so the model passes it by value. -/

namespace ConcordBft

open Checked

namespace PersistentStorage

/-- `ViewsManager::PrevViewInfo`, with pointers that may be null. -/
structure PrevViewInfo where
  prePrepare : Option PrePrepareMsg
  hasAllRequests : Bool
  prepareFull : Option SignedShareFull
deriving DecidableEq, Repr

/-- What is written when a view is left. -/
structure DescriptorOfLastExitFromView where
  view : ViewNum
  lastStable : SeqNum
  lastExecuted : SeqNum
  elements : List PrevViewInfo
deriving DecidableEq, Repr

/-- What is written when a view is entered. -/
structure DescriptorOfLastNewView where
  view : ViewNum
  newViewMsg : Option NewViewMsg
  viewChangeMsgs : List (Option ViewChangeMsg)
  maxSeqNumTransferredFromPrevViews : SeqNum
deriving DecidableEq, Repr

/-- The bitmap is the list of its bits. -/
structure DescriptorOfLastExecution where
  executedSeqNum : SeqNum
  validRequests : List Bool
deriving DecidableEq, Repr

end PersistentStorage

open PersistentStorage

def maxNumOfRequestsInBatch : ℕ := 1024

/-- What the constructor is given, and the digest of view change messages. -/
structure StorageConfig extends ReplicasInfo where
  getMsgDigest : ViewChangeMsg → Digest

/-- How a getter can stop. -/
inductive ReadFailure where
  | assertion
  /-- `cloneObjAndMsg` of a null pointer. -/
  | nullPointer
deriving DecidableEq, Repr

/-- The entry of a sequence number. -/
structure SeqNumData where
  prePrepareMsg : Option PrePrepareMsg := none
  slowStarted : Bool := false
  fullCommitProofMsg : Option FullCommitProofMsg := none
  forceCompleted : Bool := false
  prepareFullMsg : Option SignedShareFull := none
  commitFullMsg : Option SignedShareFull := none
deriving DecidableEq, Repr

/-- The entry of a checkpoint. -/
structure CheckData where
  checkpointMsg : Option CheckpointMsg := none
  completedMark : Bool := false
deriving DecidableEq, Repr

instance : Inhabited SeqNumData := ⟨{}⟩

instance : Inhabited CheckData := ⟨{}⟩

/-- `hasConfig_` and the flags of the descriptors are `isSome`. The configuration is only copied. -/
structure DebugPersistentStorage (Config : Type) where
  numOfNestedTransactions : ℕ := 0
  config : Option Config := none
  fetchingState : Bool := false
  lastExecutedSeqNum : SeqNum := 0
  primaryLastUsedSeqNum : SeqNum := 0
  strictLowerBoundOfSeqNums : SeqNum := 0
  lastViewThatTransferredSeqNumbersFullyExecuted : ViewNum := 0
  descriptorOfLastExitFromView : Option DescriptorOfLastExitFromView := none
  descriptorOfLastNewView : Option DescriptorOfLastNewView := none
  descriptorOfLastExecution : Option DescriptorOfLastExecution := none
  lastStableSeqNum : SeqNum := 0
  seqNumWindow : SequenceWithActiveWindow 300 1 SeqNumData := SequenceWithActiveWindow.resetAll 1
  checkWindow : SequenceWithActiveWindow 450 150 CheckData := SequenceWithActiveWindow.resetAll 0

namespace DebugPersistentStorage

variable {Config : Type} (st : DebugPersistentStorage Config)

/-- Whether a transaction is open. -/
def isInWriteTran : Bool := st.numOfNestedTransactions != 0

def setIsAllowed : Bool := st.isInWriteTran && st.config.isSome

def getIsAllowed : Bool := !st.isInWriteTran && st.config.isSome

def nonExecSetIsAllowed : Bool :=
  st.setIsAllowed &&
    st.descriptorOfLastExecution.all fun d => decide (d.executedSeqNum ≤ st.lastExecutedSeqNum)

/-! ## Transactions and scalars -/

/-- The number of nested transactions has eight bits. -/
def beginWriteTran : Except Failure (DebugPersistentStorage Config) :=
  pure { st with numOfNestedTransactions := (st.numOfNestedTransactions + 1) % 256 }

/-- Closes one level of the transaction. -/
def endWriteTran : Except Failure (DebugPersistentStorage Config) := do
  Assert (st.numOfNestedTransactions ≠ 0)
  pure { st with numOfNestedTransactions := st.numOfNestedTransactions - 1 }

/-- The configuration is set once. -/
def setReplicaConfig (config : Config) : Except Failure (DebugPersistentStorage Config) := do
  Assert (st.config.isSome = false)
  Assert (st.isInWriteTran = true)
  pure { st with config := some config }

/-- Fetching may not start twice. -/
def setFetchingState (f : Bool) : Except Failure (DebugPersistentStorage Config) := do
  Assert (st.nonExecSetIsAllowed = true)
  Assert (f = true → st.fetchingState = false)
  pure { st with fetchingState := f }

variable (s : SeqNum)

/-- The executed number does not go down. -/
def setLastExecutedSeqNum : Except Failure (DebugPersistentStorage Config) := do
  Assert (st.setIsAllowed = true)
  Assert (st.lastExecutedSeqNum ≤ s)
  pure { st with lastExecutedSeqNum := s }

def setPrimaryLastUsedSeqNum : Except Failure (DebugPersistentStorage Config) := do
  Assert (st.nonExecSetIsAllowed = true)
  pure { st with primaryLastUsedSeqNum := s }

def setStrictLowerBoundOfSeqNums : Except Failure (DebugPersistentStorage Config) := do
  Assert (st.nonExecSetIsAllowed = true)
  pure { st with strictLowerBoundOfSeqNums := s }

/-- The view does not go down. -/
def setLastViewThatTransferredSeqNumbersFullyExecuted (v : ViewNum) :
    Except Failure (DebugPersistentStorage Config) := do
  Assert (st.nonExecSetIsAllowed = true)
  Assert (st.lastViewThatTransferredSeqNumbersFullyExecuted ≤ v)
  pure { st with lastViewThatTransferredSeqNumbersFullyExecuted := v }

/-! ## Descriptors -/

/-- The checks on one element of a descriptor. -/
def checkPrevViewInfo (view : ViewNum) (e : PrevViewInfo) : Except Failure Unit :=
  match e.prePrepare with
  | none => .error .assertion
  | some prePrepare => do
      Assert (st.lastStableSeqNum + 1 ≤ prePrepare.seqNumber)
      Assert (prePrepare.seqNumber ≤ st.lastStableSeqNum + kWorkWindowSize)
      Assert (prePrepare.viewNumber = view)
      Assert (∀ m ∈ e.prepareFull, m.viewNumber = view)
      Assert (∀ m ∈ e.prepareFull, m.seqNumber = prePrepare.seqNumber)

def setDescriptorOfLastExitFromView (d : DescriptorOfLastExitFromView) :
    Except Failure (DebugPersistentStorage Config) := do
  Assert (st.nonExecSetIsAllowed = true)
  Assert (0 ≤ d.view)
  Assert (st.descriptorOfLastNewView.isSome = true ∨ d.view = 0)
  Assert (∀ last ∈ st.descriptorOfLastExitFromView, last.view < d.view)
  Assert (∀ last ∈ st.descriptorOfLastNewView, d.view = last.view)
  Assert (st.lastStableSeqNum ≤ d.lastStable)
  Assert (st.lastExecutedSeqNum ≤ d.lastExecuted)
  Assert ((d.elements.length : Int) ≤ kWorkWindowSize)
  d.elements.forM (st.checkPrevViewInfo d.view)
  pure { st with descriptorOfLastExitFromView := some d }

/-- The checks on one view change message of a descriptor. -/
def checkViewChangeMsg (cfg : StorageConfig) (view : ViewNum) (newViewMsg : NewViewMsg)
    (vc : Option ViewChangeMsg) : Except Failure Unit :=
  match vc with
  | none => .error .assertion
  | some vc => do
      Assert (vc.newView = view)
      Assert (newViewMsg.includesViewChangeFromReplica vc.genReplicaId (cfg.getMsgDigest vc) = true)

def setDescriptorOfLastNewView (cfg : StorageConfig) (d : DescriptorOfLastNewView) :
    Except Failure (DebugPersistentStorage Config) := do
  Assert (st.nonExecSetIsAllowed = true)
  Assert (1 ≤ d.view)
  Assert (st.descriptorOfLastExitFromView.isSome = true)
  Assert (∀ last ∈ st.descriptorOfLastExitFromView, last.view < d.view)
  match d.newViewMsg with
  | none => .error .assertion
  | some newViewMsg => do
      Assert (newViewMsg.newView = d.view)
      Assert (d.viewChangeMsgs.length = 2 * cfg.fVal + 2 * cfg.cVal + 1)
      d.viewChangeMsgs.forM (checkViewChangeMsg cfg d.view newViewMsg)
      pure { st with descriptorOfLastNewView := some d }

def setDescriptorOfLastExecution (d : DescriptorOfLastExecution) :
    Except Failure (DebugPersistentStorage Config) := do
  Assert (st.setIsAllowed = true)
  Assert (∀ last ∈ st.descriptorOfLastExecution, last.executedSeqNum < d.executedSeqNum)
  Assert (st.lastExecutedSeqNum + 1 = d.executedSeqNum)
  Assert (1 ≤ d.validRequests.length)
  Assert (d.validRequests.length ≤ maxNumOfRequestsInBatch)
  pure { st with descriptorOfLastExecution := some d }

/-! ## The windows -/

/-- The stable number moves both windows. -/
def setLastStableSeqNum : Except Failure (DebugPersistentStorage Config) := do
  Assert (st.lastStableSeqNum ≤ s)
  let seqNumWindow ← st.seqNumWindow.advanceActiveWindow (s + 1)
  let checkWindow ← st.checkWindow.advanceActiveWindow s
  pure { st with
    lastStableSeqNum := s
    seqNumWindow := seqNumWindow
    checkWindow := checkWindow }

/-- Empties the window of numbers. -/
def clearSeqNumWindow : Except Failure (DebugPersistentStorage Config) := do
  let s := st.seqNumWindow.beginningOfActiveWindow
  Assert (s = st.lastStableSeqNum + 1)
  pure { st with seqNumWindow := SequenceWithActiveWindow.resetAll s }

/-- What the setters of the window of sequence numbers share: `check` is asserted of the entry before
    it is changed. -/
def updateSeqNumWindow (check : SeqNumData → Bool) (update : SeqNumData → SeqNumData) :
    Except Failure (DebugPersistentStorage Config) := do
  Assert (st.seqNumWindow.insideActiveWindow s = true)
  let seqNumData ← st.seqNumWindow.get s
  Assert (check seqNumData = true)
  pure { st with seqNumWindow := st.seqNumWindow.set s (update seqNumData) }

/-- The PrePrepare of a number, set once. -/
def setPrePrepareMsgInSeqNumWindow (m : PrePrepareMsg) :
    Except Failure (DebugPersistentStorage Config) :=
  st.updateSeqNumWindow s (·.prePrepareMsg.isNone) fun i => { i with prePrepareMsg := some m }

def setSlowStartedInSeqNumWindow (slowStarted : Bool) :
    Except Failure (DebugPersistentStorage Config) :=
  st.updateSeqNumWindow s (fun _ => true) fun i => { i with slowStarted := slowStarted }

/-- The full proof of a number, set once. -/
def setFullCommitProofMsgInSeqNumWindow (m : FullCommitProofMsg) :
    Except Failure (DebugPersistentStorage Config) :=
  st.updateSeqNumWindow s (·.fullCommitProofMsg.isNone) fun i =>
    { i with fullCommitProofMsg := some m }

/-- The flag is only ever set. -/
def setForceCompletedInSeqNumWindow (forceCompleted : Bool) :
    Except Failure (DebugPersistentStorage Config) := do
  Assert (forceCompleted = true)
  st.updateSeqNumWindow s (fun _ => true) fun i => { i with forceCompleted := forceCompleted }

def setPrepareFullMsgInSeqNumWindow (m : SignedShareFull) :
    Except Failure (DebugPersistentStorage Config) :=
  st.updateSeqNumWindow s (·.prepareFullMsg.isNone) fun i => { i with prepareFullMsg := some m }

def setCommitFullMsgInSeqNumWindow (m : SignedShareFull) :
    Except Failure (DebugPersistentStorage Config) :=
  st.updateSeqNumWindow s (·.commitFullMsg.isNone) fun i => { i with commitFullMsg := some m }

/-- What the setters of the window of checkpoints share. -/
def updateCheckWindow (update : CheckData → CheckData) :
    Except Failure (DebugPersistentStorage Config) := do
  Assert (st.checkWindow.insideActiveWindow s = true)
  let checkData ← st.checkWindow.get s
  pure { st with checkWindow := st.checkWindow.set s (update checkData) }

/-- The own message of a checkpoint. -/
def setCheckpointMsgInCheckWindow (m : CheckpointMsg) :
    Except Failure (DebugPersistentStorage Config) :=
  st.updateCheckWindow s fun i => { i with checkpointMsg := some m }

/-- A checkpoint is marked as complete. -/
def setCompletedMarkInCheckWindow (f : Bool) : Except Failure (DebugPersistentStorage Config) := do
  Assert (f = true)
  st.updateCheckWindow s fun i => { i with completedMark := f }

/-! ## Getters -/

/-- A getter that checks nothing else. -/
def read {α : Type} (v : α) : Except ReadFailure α := do
  require ReadFailure.assertion (st.getIsAllowed = true)
  pure v

/-- `p->cloneObjAndMsg()` -/
def cloneObjAndMsg {α : Type} : Option α → Except ReadFailure α
  | none => .error .nullPointer
  | some m => .ok m

/-- A descriptor, which the getter asserts to be there. -/
def readDescriptor {α : Type} (descriptor : Option α) : Except ReadFailure α := do
  require ReadFailure.assertion (st.getIsAllowed = true)
  match descriptor with
  | none => .error .assertion
  | some d => pure d

/-- It checks nothing at all. -/
def hasReplicaConfig : Bool := st.config.isSome

/-- The configuration, if it was set. -/
def getReplicaConig : Except ReadFailure Config := st.readDescriptor st.config

/-- Whether a state is fetched. -/
def getFetchingState : Except ReadFailure Bool := st.read st.fetchingState

/-- As in the source. -/
def getLastExecutedSeqNum : Except ReadFailure SeqNum := st.read st.lastStableSeqNum

/-- What `setPrimaryLastUsedSeqNum` wrote. -/
def getPrimaryLastUsedSeqNum : Except ReadFailure SeqNum := st.read st.primaryLastUsedSeqNum

def getStrictLowerBoundOfSeqNums : Except ReadFailure SeqNum := st.read st.strictLowerBoundOfSeqNums

/-- What the setter of the view wrote. -/
def getLastViewThatTransferredSeqNumbersFullyExecuted : Except ReadFailure ViewNum :=
  st.read st.lastViewThatTransferredSeqNumbersFullyExecuted

/-- Whether a view was left. -/
def hasDescriptorOfLastExitFromView : Except ReadFailure Bool :=
  st.read st.descriptorOfLastExitFromView.isSome

/-- The PrePrepares are cloned without a test. -/
def getAndAllocateDescriptorOfLastExitFromView : Except ReadFailure DescriptorOfLastExitFromView := do
  let d ← st.readDescriptor st.descriptorOfLastExitFromView
  let elements ← d.elements.mapM fun e => do
    let prePrepare ← cloneObjAndMsg e.prePrepare
    pure { e with prePrepare := some prePrepare }
  pure { d with elements := elements }

/-- Whether a view was entered. -/
def hasDescriptorOfLastNewView : Except ReadFailure Bool :=
  st.read st.descriptorOfLastNewView.isSome

def getAndAllocateDescriptorOfLastNewView : Except ReadFailure DescriptorOfLastNewView := do
  let d ← st.readDescriptor st.descriptorOfLastNewView
  let newViewMsg ← cloneObjAndMsg d.newViewMsg
  let viewChangeMsgs ← d.viewChangeMsgs.mapM cloneObjAndMsg
  pure { d with
    newViewMsg := some newViewMsg
    viewChangeMsgs := viewChangeMsgs.map some }

/-- Whether an execution was described. -/
def hasDescriptorOfLastExecution : Except ReadFailure Bool :=
  st.read st.descriptorOfLastExecution.isSome

/-- The last description of an execution. -/
def getDescriptorOfLastExecution : Except ReadFailure DescriptorOfLastExecution :=
  st.readDescriptor st.descriptorOfLastExecution

/-- The stable number. -/
def getLastStableSeqNum : Except ReadFailure SeqNum := st.read st.lastStableSeqNum

/-- What the getters of the window of sequence numbers share. -/
def readSeqNumWindow {α : Type} (s : SeqNum) (field : SeqNumData → α) : Except ReadFailure α := do
  require ReadFailure.assertion (st.getIsAllowed = true)
  require ReadFailure.assertion
    (st.lastStableSeqNum + 1 = st.seqNumWindow.beginningOfActiveWindow)
  require ReadFailure.assertion (st.seqNumWindow.insideActiveWindow s = true)
  require ReadFailure.assertion (st.seqNumWindow.Holds s)
  pure (field (st.seqNumWindow.lookup s))

/-- A copy of the PrePrepare of a number. -/
def getAndAllocatePrePrepareMsgInSeqNumWindow : Except ReadFailure PrePrepareMsg := do
  cloneObjAndMsg (← st.readSeqNumWindow s (·.prePrepareMsg))

def getSlowStartedInSeqNumWindow : Except ReadFailure Bool := st.readSeqNumWindow s (·.slowStarted)

/-- A copy of the full proof of a number. -/
def getAndAllocateFullCommitProofMsgInSeqNumWindow : Except ReadFailure FullCommitProofMsg := do
  cloneObjAndMsg (← st.readSeqNumWindow s (·.fullCommitProofMsg))

def getForceCompletedInSeqNumWindow : Except ReadFailure Bool :=
  st.readSeqNumWindow s (·.forceCompleted)

def getAndAllocatePrepareFullMsgInSeqNumWindow : Except ReadFailure SignedShareFull := do
  cloneObjAndMsg (← st.readSeqNumWindow s (·.prepareFullMsg))

def getAndAllocateCommitFullMsgInSeqNumWindow : Except ReadFailure SignedShareFull := do
  cloneObjAndMsg (← st.readSeqNumWindow s (·.commitFullMsg))

/-- What the getters of the window of checkpoints share. -/
def readCheckWindow {α : Type} (s : SeqNum) (field : CheckData → α) : Except ReadFailure α := do
  require ReadFailure.assertion (st.getIsAllowed = true)
  require ReadFailure.assertion (st.lastStableSeqNum = st.checkWindow.beginningOfActiveWindow)
  require ReadFailure.assertion (st.checkWindow.insideActiveWindow s = true)
  require ReadFailure.assertion (st.checkWindow.Holds s)
  pure (field (st.checkWindow.lookup s))

/-- A copy of the message of a checkpoint. -/
def getAndAllocateCheckpointMsgInCheckWindow : Except ReadFailure CheckpointMsg := do
  cloneObjAndMsg (← st.readCheckWindow s (·.checkpointMsg))

/-- Whether a checkpoint is complete. -/
def getCompletedMarkInCheckWindow : Except ReadFailure Bool :=
  st.readCheckWindow s (·.completedMark)

end DebugPersistentStorage

end ConcordBft
