import ConcordBft.CollectorOfThresholdSignatures
import ConcordBft.PartialProofsSet

set_option autoImplicit false

/-! # The agreement on one sequence number (`SeqNumInfo.cpp`)

A `SeqNumInfo` holds what a replica knows about one sequence number in the current view: the
PrePrepare, the collectors for prepare and commit signatures of the slow path, and the proofs of the
fast path. A number is prepared by a valid prepare signature and committed by a valid commit
signature; a full commit proof forces both. Times of events are left out. -/

namespace ConcordBft

open Checked

/-- What a replica knows about one sequence number. -/
structure SeqNumInfo where
  prePrepareMsg : Option PrePrepareMsg := none
  prepareSigCollector : CollectorOfThresholdSignatures := {}
  commitMsgsCollector : CollectorOfThresholdSignatures := {}
  partialProofsSet : PartialProofsSet := {}
  primary : Bool := false
  forcedCompleted : Bool := false
  slowPathHasStarted : Bool := false
deriving DecidableEq, Repr

instance : Inhabited SeqNumInfo := ⟨{}⟩

namespace ReplicaConfig

/-- The digest that is signed to prepare `d` at `s` in view `v`. -/
def prepareDigest (v : ViewNum) (s : SeqNum) (d : Digest) : Digest := Digest.calcCombination d v s

/-- The digest that is signed to commit `d` at `s` in view `v`. -/
def commitDigest (cfg : ReplicaConfig) (v : ViewNum) (s : SeqNum) (d : Digest) : Digest :=
  Digest.calcCombination (cfg.digestOfDigest d) v s

def requiredForSlowPath (cfg : ReplicaConfig) : ℕ := cfg.requiredSignatures .SlowPathCommit

end ReplicaConfig

namespace SeqNumInfo

variable (cfg : ReplicaConfig) (info : SeqNumInfo)

/-- The PrePrepare of the slot. -/
def getPrePrepareMsg : Option PrePrepareMsg := info.prePrepareMsg

def getSelfPrePrepareMsg : Option PrePrepareMsg := if info.primary then info.prePrepareMsg else none

/-- Whether the slot has its PrePrepare. -/
def hasPrePrepareMsg : Bool := info.prePrepareMsg.isSome

/-- The own prepare share. -/
def getSelfPreparePartialMsg : Option SignedSharePartial :=
  info.prepareSigCollector.getPartialMsgFromReplica cfg.myId

def getValidPrepareFullMsg : Option SignedShareFull :=
  info.prepareSigCollector.getMsgWithValidCombinedSignature

/-- The own commit share. -/
def getSelfCommitPartialMsg : Option SignedSharePartial :=
  info.commitMsgsCollector.getPartialMsgFromReplica cfg.myId

def getValidCommitFullMsg : Option SignedShareFull :=
  info.commitMsgsCollector.getMsgWithValidCombinedSignature

/-- The shares of the fast path. -/
def partialProofs : PartialProofsSet := info.partialProofsSet

def isPrepared : Bool :=
  info.forcedCompleted || (info.prePrepareMsg.isSome && info.prepareSigCollector.isComplete)

/-- `isCommitted__gg` -/
def isCommitted : Bool := info.forcedCompleted || info.commitMsgsCollector.isComplete

def preparedOrHasPreparePartialFromReplica (repId : ReplicaId) : Bool :=
  info.isPrepared || info.prepareSigCollector.hasPartialMsgFromReplica repId

def committedOrHasCommitPartialFromReplica (repId : ReplicaId) : Bool :=
  info.isCommitted || info.commitMsgsCollector.hasPartialMsgFromReplica repId

/-- The slow path of the number starts. -/
def startSlowPath : SeqNumInfo := { info with slowPathHasStarted := true }

/-- Whether the slow path has started. -/
def slowPathStarted : Bool := info.slowPathHasStarted

/-- The end of both functions that take a PrePrepare: set expected. -/
def setPrePrepare (m : PrePrepareMsg) (primary : Bool) : Except Failure SeqNumInfo := do
  let collector ← info.prepareSigCollector.setExpected cfg.requiredForSlowPath m.seqNumber
    m.viewNumber (ReplicaConfig.prepareDigest m.viewNumber m.seqNumber m.digestOfRequests)
  pure { info with
    prePrepareMsg := some m
    primary := primary
    prepareSigCollector := collector }

/-- `addMsg(PrePrepareMsg*)` -/
def addPrePrepare (m : PrePrepareMsg) : Except Failure (SeqNumInfo × Bool) :=
  if info.prePrepareMsg.isSome then pure (info, false)
  else do
    Assert (info.primary = false)
    Assert (info.forcedCompleted = false)
    Assert (info.prepareSigCollector.hasPartialMsgFromReplica cfg.myId = false)
    let info ← info.setPrePrepare cfg m false
    pure (info, true)

/-- `addSelfMsg(PrePrepareMsg*)` -/
def addSelfPrePrepare (m : PrePrepareMsg) : Except Failure SeqNumInfo := do
  Assert (info.primary = false)
  Assert (cfg.myId = cfg.primaryOfView m.viewNumber)
  Assert (info.forcedCompleted = false)
  Assert (info.prePrepareMsg = none)
  info.setPrePrepare cfg m true

/-- A prepare share of a peer. -/
def addPreparePartial (m : SignedSharePartial) : Except Failure (SeqNumInfo × Bool) := do
  Assert (cfg.myId ≠ m.senderId)
  Assert (info.forcedCompleted = false)
  let (collector, retVal) ←
    info.prepareSigCollector.addMsgWithPartialSignature cfg.requiredForSlowPath m m.senderId
  pure ({ info with prepareSigCollector := collector }, retVal)

def addSelfPreparePartial (m : SignedSharePartial) : Except Failure SeqNumInfo := do
  Assert (cfg.myId = m.senderId)
  Assert (info.forcedCompleted = false)
  let (collector, r) ←
    info.prepareSigCollector.addMsgWithPartialSignature cfg.requiredForSlowPath m m.senderId
  Assert (r = true)
  pure { info with prepareSigCollector := collector }

/-- A prepare signature of a peer. -/
def addPrepareFull (m : SignedShareFull) : Except Failure (SeqNumInfo × Bool) := do
  Assert (cfg.myId ≠ m.senderId)
  Assert (info.forcedCompleted = false)
  let (collector, retVal) ←
    info.prepareSigCollector.addMsgWithCombinedSignature cfg.requiredForSlowPath m
  pure ({ info with prepareSigCollector := collector }, retVal)

/-- A commit share of a peer. -/
def addCommitPartial (m : SignedSharePartial) : Except Failure (SeqNumInfo × Bool) := do
  Assert (cfg.myId ≠ m.senderId)
  Assert (info.forcedCompleted = false)
  let (collector, r) ←
    info.commitMsgsCollector.addMsgWithPartialSignature cfg.requiredForSlowPath m m.senderId
  pure ({ info with commitMsgsCollector := collector }, r)

def addSelfCommitPartialMsgAndDigest (m : SignedSharePartial) (commitDigest : Digest) :
    Except Failure SeqNumInfo := do
  Assert (cfg.myId = m.senderId)
  Assert (info.forcedCompleted = false)
  let collector ← info.commitMsgsCollector.setExpected cfg.requiredForSlowPath m.seqNumber
    m.viewNumber (Digest.calcCombination commitDigest m.viewNumber m.seqNumber)
  let (collector, r) ←
    collector.addMsgWithPartialSignature cfg.requiredForSlowPath m m.senderId
  Assert (r = true)
  pure { info with commitMsgsCollector := collector }

/-- A commit signature of a peer. -/
def addCommitFull (m : SignedShareFull) : Except Failure (SeqNumInfo × Bool) := do
  Assert (cfg.myId ≠ m.senderId)
  Assert (info.forcedCompleted = false)
  let (collector, r) ←
    info.commitMsgsCollector.addMsgWithCombinedSignature cfg.requiredForSlowPath m
  pure ({ info with commitMsgsCollector := collector }, r)

/-- A full proof completes the slot. -/
def forceComplete : Except Failure SeqNumInfo := do
  Assert (info.forcedCompleted = false)
  Assert (info.hasPrePrepareMsg = true)
  Assert (info.partialProofsSet.hasFullProof = true)
  pure { info with forcedCompleted := true }

/-- `getAndReset`: the PrePrepare and the prepared certificate; the slot itself is reset. -/
def getAndReset : Option PrePrepareMsg × Option SignedShareFull :=
  (info.prePrepareMsg, info.prepareSigCollector.combinedValidSignatureMsg)

/-! ## Results of background jobs -/

/-- What a job on the signatures of a collector returns. The verification of a combined signature
    returns what the verifier says; combining shares returns a valid combined signature, or the
    replicas whose shares are bad. -/
inductive JobResult where
  | combiningFailed (replicasWithBadSigs : List ReplicaId)
  | combiningSucceeded (combinedSig : Bytes)
  | verified
deriving DecidableEq, Repr

/-- The collector after the result of its job; `none` if the result does not fit the job. The flag
    tells whether there is a valid combined signature now. -/
def completeJob (cfg : ReplicaConfig) (c : CollectorOfThresholdSignatures) (s : SeqNum) (v : ViewNum)
    (result : JobResult) :
    Except Failure (Option (CollectorOfThresholdSignatures × Bool)) :=
  match c.job, result with
  | some (.SignaturesProcessingJob _ _), .combiningFailed bad => do
      let c ← c.onCombiningFailed cfg.requiredForSlowPath s v bad
      pure (some (c, false))
  | some (.SignaturesProcessingJob digest _), .combiningSucceeded sig =>
    if cfg.verify .SlowPathCommit digest sig then do
      let c ← c.onCombiningSucceeded cfg.myId s v sig
      pure (some (c, true))
    else pure none
  | some (.CombinedSigVerificationJob digest sig), .verified => do
      let isValid := cfg.verify .SlowPathCommit digest sig
      let c ← c.onCompletionOfCombinedSigVerification cfg.requiredForSlowPath s v isValid
      pure (some (c, isValid))
  | _, _ => pure none

end SeqNumInfo

end ConcordBft
