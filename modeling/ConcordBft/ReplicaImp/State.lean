import ConcordBft.ClientsManager
import ConcordBft.MsgsCertificate
import ConcordBft.SeqNumInfo
import ConcordBft.SequenceWithActiveWindow
import ConcordBft.ViewsManager

set_option autoImplicit false

/-! # The state of a replica (`ReplicaImp.hpp`)

`ReplicaImp` holds the members of the class that decide what the replica does. Clocks are not
modelled: where the code compares times, the outcome is a field of `Env`, which comes with each event
and may be different each time.

`trace` is a history variable. It records the messages the replica sends, the digests it signs and
the views it enters, the newest first; no function of the source corresponds to reading it. -/

namespace ConcordBft

open Checked

/-! ## The remaining messages -/

/-- The primary starts the slow path of a number. -/
structure StartSlowCommitMsg where
  senderId : ReplicaId
  viewNumber : ViewNum
  seqNumber : SeqNum
deriving DecidableEq, Repr

variable (cfg : ReplicaConfig)

/-- Only the primary of its view sends it. -/
def StartSlowCommitMsg.ToActualMsgType (m : StartSlowCommitMsg) : Bool :=
  cfg.primaryOfView m.viewNumber == m.senderId

/-- A replica asks for the messages of a number. -/
structure ReqMissingDataMsg where
  senderId : ReplicaId
  viewNumber : ViewNum
  seqNumber : SeqNum
  prePrepareIsMissing : Bool := false
  partialProofIsMissing : Bool := false
  partialPrepareIsMissing : Bool := false
  partialCommitIsMissing : Bool := false
  fullCommitProofIsMissing : Bool := false
  fullPrepareIsMissing : Bool := false
  fullCommitIsMissing : Bool := false
  slowPathHasStarted : Bool := false
deriving DecidableEq, Repr

/-- The optional lists are bit maps in the source. -/
structure ReplicaStatusMsg where
  senderId : ReplicaId
  viewNumber : ViewNum
  lastStableSeqNum : SeqNum
  lastExecutedSeqNum : SeqNum
  viewIsActive : Bool
  hasNewChangeMsg : Bool
  listOfPPInActiveWindow : Option (List SeqNum) := none
  listOfMissingVCMsg : Option (List ReplicaId) := none
  listOfMissingPPMsg : Option (List SeqNum) := none
deriving DecidableEq, Repr

/-- What is accepted from the network. -/
def ReplicaStatusMsg.ToActualMsgType (m : ReplicaStatusMsg) : Bool :=
  cfg.isIdOfPeerReplica m.senderId && m.lastStableSeqNum % checkpointWindowSize == 0 &&
    decide (m.lastStableSeqNum ≤ m.lastExecutedSeqNum) &&
    (!m.viewIsActive || m.hasNewChangeMsg) &&
    (!m.viewIsActive || m.listOfMissingVCMsg.isNone) &&
    (!m.viewIsActive || m.listOfMissingPPMsg.isNone) &&
    (m.viewIsActive || m.listOfPPInActiveWindow.isNone) &&
    decide (m.listOfPPInActiveWindow.isSome.toNat + m.listOfMissingVCMsg.isSome.toNat +
      m.listOfMissingPPMsg.isSome.toNat < 2)

/-- The numbers of a message that was received are `int64_t`. -/
structure ReplicaStatusMsg.Fits (m : ReplicaStatusMsg) : Prop where
  lastStableSeqNum : -2 ^ 63 ≤ m.lastStableSeqNum ∧ m.lastStableSeqNum < 2 ^ 63
  lastExecutedSeqNum : -2 ^ 63 ≤ m.lastExecutedSeqNum ∧ m.lastExecutedSeqNum < 2 ^ 63

def ReplicaStatusMsg.isPrePrepareInActiveWindow (m : ReplicaStatusMsg) (seqNum : SeqNum) :
    Except Failure Bool := do
  Assert (m.listOfPPInActiveWindow.isSome = true)
  Assert (m.lastStableSeqNum < seqNum)
  Assert (seqNum ≤ asInt64 (m.lastStableSeqNum + kWorkWindowSize))
  pure ((m.listOfPPInActiveWindow.getD []).contains seqNum)

/-- `PreparePartialMsg` and `CommitPartialMsg`: only the primary of the view accepts them. -/
def SignedSharePartial.ToActualMsgType (m : SignedSharePartial) : Bool :=
  cfg.isIdOfPeerReplica m.senderId && cfg.primaryOfView m.viewNumber == cfg.myId

/-- What is accepted from the network. -/
def CheckpointMsg.ToActualMsgType (m : CheckpointMsg) : Bool :=
  cfg.isIdOfPeerReplica m.genReplicaId && m.seqNumber % checkpointWindowSize == 0 &&
    !m.digestOfState.isZero

/-- Any message; the sender of a client request is not part of the request. -/
inductive Msg where
  | clientRequest (senderId : NodeIdType) (m : ClientRequestMsg)
  | clientReply (m : ClientReplyMsg)
  | prePrepare (m : PrePrepareMsg)
  | startSlowCommit (m : StartSlowCommitMsg)
  | partialCommitProof (m : PartialCommitProofMsg)
  | fullCommitProof (m : FullCommitProofMsg)
  | preparePartial (m : SignedSharePartial)
  | prepareFull (m : SignedShareFull)
  | commitPartial (m : SignedSharePartial)
  | commitFull (m : SignedShareFull)
  | checkpoint (m : CheckpointMsg)
  | viewChange (m : ViewChangeMsg)
  | newView (m : NewViewMsg)
  | reqMissingData (m : ReqMissingDataMsg)
  | replicaStatus (m : ReplicaStatusMsg)
deriving DecidableEq, Repr

/-! ## The history -/

/-- What a share is a vote for. -/
inductive Vote where
  | prepare
  | commit
  | fast (path : CommitPath)
deriving DecidableEq, Repr

/-- What a replica does to the outside, and what it takes as decided. -/
inductive Action where
  | send (dest : NodeIdType) (m : Msg)
  | sendToAllOtherReplicas (m : Msg)
  /-- The replica takes a PrePrepare with digest `d` as the one of `s` in view `v`. -/
  | accept (v : ViewNum) (s : SeqNum) (d : Digest)
  /-- The replica makes its share on the digest `d` at `s` in view `v`. -/
  | sign (vote : Vote) (v : ViewNum) (s : SeqNum) (d : Digest)
  /-- The replica enters view `v` with the messages `vcs` and the given lower and stable points. -/
  | enterView (v : ViewNum) (vcs : List (Option ViewChangeMsg)) (lowerBound lastStable : SeqNum)
  /-- The replica executes the requests of the PrePrepare for `s`. -/
  | execute (s : SeqNum) (requests : List ClientRequestMsg) (thresholSignature : Option Bytes)
  /-- `sendCheckpointIfNeeded` marks the certificate of checkpoint `k` as complete. -/
  | markCheckpoint (k : SeqNum)
deriving DecidableEq, Repr

/-! ## The state -/

/-- `SequenceWithActiveWindow<kWorkWindowSize, 1, SeqNumInfo>` -/
abbrev MainLog := SequenceWithActiveWindow 300 1 SeqNumInfo

/-- `SequenceWithActiveWindow<kWorkWindowSize + checkpointWindowSize, checkpointWindowSize,
    CheckpointInfo>` -/
abbrev CheckpointsLog := SequenceWithActiveWindow 450 150 CheckpointInfo

instance : Inhabited CheckpointInfo := ⟨{}⟩

/-- What depends on clocks, on the controller of the commit paths and on the state transfer module
    while one event is handled. Where a value may change during the event, it is indexed by the
    sequence number it is asked for. -/
structure Env where
  /-- `controller->getCurrentFirstPath()` when a number is proposed -/
  currentFirstPath : SeqNum → CommitPath := fun _ => .SLOW
  /-- the time to wait for the fast path of a number is over -/
  timeToStartSlowPath : SeqNum → Bool := fun _ => false
  /-- three seconds have passed since the checkpoint was created; asked after each execution -/
  timeToSendCheckpoint : SeqNum → Bool := fun _ => false
  /-- the first information about the number, or the last request for it, is old -/
  oldInfo : SeqNum → Bool := fun _ => false
  /-- the minimal time between two requests for missing data has passed -/
  timeToRequestInfo : SeqNum → Bool := fun _ => false
  timeToSendStatusReport : Bool := false
  timeToStartStateTransfer : Bool := false
  timeToChangeView : Bool := false
  /-- `stateTransfer->getDigestOfCheckpoint` -/
  digestOfCheckpoint : SeqNum → Digest := fun _ => Digest.nullDigest

/-- The state of a replica. -/
structure ReplicaImp (App : Type) where
  curView : ViewNum := 0
  primaryLastUsedSeqNum : SeqNum := 0
  lastStableSeqNum : SeqNum := 0
  lastExecutedSeqNum : SeqNum := 0
  strictLowerBoundOfSeqNums : SeqNum := 0
  maxSeqNumTransferredFromPrevViews : SeqNum := 0
  lastAgreedView : ViewNum := 0
  viewsManager : ViewsManager := {}
  mainLog : MainLog := .resetAll 1
  checkpointsLog : CheckpointsLog := .resetAll 0
  tableOfStableCheckpoints : List (ReplicaId × CheckpointMsg) := []
  requestsQueueOfPrimary : List ClientRequestMsg := []
  maxNumberOfPendingRequestsInRecentHistory : ℕ := 0
  batchingFactor : ℕ := 1
  /-- `stateTransfer->isCollectingState()` -/
  isCollectingState : Bool := false
  execution : Execution App
  trace : List Action := []

namespace ReplicaImp

variable {App : Type} (cfg : ReplicaConfig) (r : ReplicaImp App)

/-- Whether the replica works in its view. -/
def currentViewIsActive : Bool := r.viewsManager.viewIsActive r.curView

/-- The primary of the current view. -/
def currentPrimary : ReplicaId := cfg.primaryOfView r.curView

/-- Whether this replica is that primary. -/
def isCurrentPrimary : Bool := r.currentPrimary cfg == cfg.myId

def record (a : Action) : ReplicaImp App := { r with trace := a :: r.trace }

/-- A message to one node. -/
def send (r : ReplicaImp App) (m : Msg) (dest : NodeIdType) : ReplicaImp App :=
  r.record (.send dest m)

/-- A message to all other replicas. -/
def sendToAllOtherReplicas (r : ReplicaImp App) (m : Msg) : ReplicaImp App :=
  r.record (.sendToAllOtherReplicas m)

/-- Writes through a reference into `mainLog`. -/
def setSlot (s : SeqNum) (info : SeqNumInfo) : ReplicaImp App :=
  { r with mainLog := r.mainLog.set s info }

/-- Writes through a reference into `checkpointsLog`. -/
def setCheckpoint (s : SeqNum) (info : CheckpointInfo) : ReplicaImp App :=
  { r with checkpointsLog := r.checkpointsLog.set s info }

end ReplicaImp

end ConcordBft
