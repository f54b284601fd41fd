import ConcordBft.Types

set_option autoImplicit false

/-! # Certificates of matching messages (`MsgsCertificate.hpp`)

A `MsgsCertificate` keeps the first message of every replica and sorts the messages into classes of
equivalent ones. With `SelfTrust` the replica's own message, once it arrives, fixes the only class
that still counts; with `SelfIsRequired` the certificate is not complete without it. The class sizes
are cached counters: they are what completeness is decided on, and nothing recounts them. -/

namespace ConcordBft

/-- The template arguments and the constant members of a `MsgsCertificate`. -/
structure CertificateParams (T : Type) where
  SelfTrust : Bool
  SelfIsRequired : Bool
  numOfReps : ℕ
  maxFails : ℕ
  required : ℕ
  selfId : ReplicaId
  equivalent : T → T → Bool

/-- A class of equivalent messages. -/
structure MsgClassInfo where
  size : ℕ
  representativeReplica : ReplicaId
deriving DecidableEq, Repr

/-- `msgClasses` holds the used part of the source's array, so `numOfClasses` is its length;
    `bestClass = none` is `NULL_CLASS`. -/
structure MsgsCertificate (T : Type) where
  msgsFromReplicas : List (ReplicaId × T) := []
  msgClasses : List MsgClassInfo := []
  complete : Bool := false
  bestClass : Option ℕ := none
  sizeOfBestClass : ℕ := 0
  hasTrustedSelfClass : Bool := false
deriving DecidableEq, Repr

namespace MsgsCertificate

variable {T : Type}

/-- Whether no message was added. -/
def isEmpty (c : MsgsCertificate T) : Bool := c.msgsFromReplicas.isEmpty

variable (p : CertificateParams T) (c : MsgsCertificate T)

/-- Discards the messages. -/
def resetAndFree : MsgsCertificate T :=
  if c.msgsFromReplicas.isEmpty then { c with complete := false } else {}

/-- Whether a replica has sent its message. -/
def hasMsgFromReplica (replicaId : ReplicaId) : Bool := (c.msgsFromReplicas.lookup replicaId).isSome

/-- The message of this replica. -/
def selfMsg : Option T := c.msgsFromReplicas.lookup p.selfId

/-- Whether the certificate was marked. -/
def isComplete : Bool := c.complete

def isInconsistent : Bool := p.maxFails + 1 ≤ c.msgClasses.length

def tryToMarkComplete : MsgsCertificate T :=
  if !p.SelfIsRequired || c.hasMsgFromReplica p.selfId then { c with complete := true } else c

/-- Is `msg` equivalent to the representative of the class? -/
def belongsTo (msg : T) (cls : MsgClassInfo) : Bool :=
  match c.msgsFromReplicas.lookup cls.representativeReplica with
  | some representativeMsg => p.equivalent representativeMsg msg
  | none => false

/-- The search loop shared by `addPeerMsg` and `addSelfMsg`: the first class that `msg` belongs
    to. -/
def findClass (msg : T) : Option ℕ := c.msgClasses.findIdx? (c.belongsTo p msg)

/-- Class `i` gets one more member. -/
def incClass (i : ℕ) : MsgsCertificate T :=
  { c with msgClasses := c.msgClasses.modify i fun cls => { cls with size := cls.size + 1 } }

/-- The members of class `i`; 0 if there is no such class. -/
def classSize (i : ℕ) : ℕ := ((c.msgClasses[i]?).map (·.size)).getD 0

/-- The tail of `addPeerMsg` for a message that joined class `i`. -/
def updateBestClass (i : ℕ) : MsgsCertificate T :=
  let c := if c.sizeOfBestClass < c.classSize i then
      { c with bestClass := some i, sizeOfBestClass := c.classSize i }
    else c
  if c.bestClass = some i ∧ p.required ≤ c.sizeOfBestClass then c.tryToMarkComplete p else c

/-- The tail of `addPeerMsg` for a message that opens a new class. -/
def createClass (replicaId : ReplicaId) : MsgsCertificate T :=
  if p.numOfReps ≤ c.msgClasses.length then c
  else
    let relevantClass := c.msgClasses.length
    let c := { c with msgClasses := c.msgClasses ++ [⟨1, replicaId⟩] }
    if c.bestClass = none then
      { c with bestClass := some relevantClass, sizeOfBestClass := 1 }
    else c

def addPeerMsg (msg : T) (replicaId : ReplicaId) : MsgsCertificate T :=
  if c.hasTrustedSelfClass then
    -- in this case, we have a single class
    match c.msgClasses[0]? with
    | some cls =>
      if c.belongsTo p msg cls then (c.incClass 0).updateBestClass p 0
      else c
    | none => c
  else
    match c.findClass p msg with
    | some i => (c.incClass i).updateBestClass p i
    | none => c.createClass p replicaId

/-- The size of the class that the own message opens. When an equivalent class exists, the search
    loop has incremented its counter for the own message, and the size is that counter plus one. -/
def selfClassSize (msg : T) : ℕ :=
  match c.findClass p msg with
  | none => 1
  | some i => (c.incClass i).classSize i + 1

/-- The own message replaces all classes by one. -/
def addSelfMsg (msg : T) : MsgsCertificate T :=
  let size := c.selfClassSize p msg
  let c := { c with
    msgClasses := [⟨size, p.selfId⟩]
    bestClass := some 0
    sizeOfBestClass := size
    hasTrustedSelfClass := true }
  if p.required ≤ size then c.tryToMarkComplete p else c

/-- Adds the first message of a replica. -/
def addMsg (msg : T) (replicaId : ReplicaId) : Bool × MsgsCertificate T :=
  if c.hasMsgFromReplica replicaId then (false, c)
  else
    let c := { c with msgsFromReplicas := c.msgsFromReplicas ++ [(replicaId, msg)] }
    if c.complete then (true, c)
    else if p.SelfTrust && replicaId == p.selfId then (true, c.addSelfMsg p msg)
    else (true, c.addPeerMsg p msg replicaId)

end MsgsCertificate

/-! ## Checkpoint certificates (`CheckpointInfo.cpp`) -/

/-- A replica announces the state of a checkpoint. -/
structure CheckpointMsg where
  genReplicaId : ReplicaId
  seqNumber : SeqNum
  digestOfState : Digest
  isStableState : Bool
deriving DecidableEq, Repr

/-- `CheckpointMsgCmp::equivalent` -/
def CheckpointMsg.equivalent (a b : CheckpointMsg) : Bool :=
  a.seqNumber == b.seqNumber && a.digestOfState == b.digestOfState

/-- The certificate that `CheckpointInfo::init` creates. -/
def checkpointParams (info : ReplicasInfo) (myId : ReplicaId) : CertificateParams CheckpointMsg where
  SelfTrust := true
  SelfIsRequired := true
  numOfReps := info.numberOfReplicas
  maxFails := info.fVal
  required := 2 * info.fVal + info.cVal + 1
  selfId := myId
  equivalent := CheckpointMsg.equivalent

/-- `executed` tells whether the execution time of the checkpoint has been set
    (`executed != MinTime`); the time itself is read by no modelled decision. -/
structure CheckpointInfo where
  checkpointCertificate : MsgsCertificate CheckpointMsg := {}
  sentToAllOrApproved : Bool := false
  executed : Bool := false
deriving DecidableEq, Repr

namespace CheckpointInfo

variable (info : ReplicasInfo) (myId : ReplicaId) (i : CheckpointInfo)

/-- A message for the checkpoint. -/
def addCheckpointMsg (msg : CheckpointMsg) (replicaId : ReplicaId) : CheckpointInfo :=
  { i with checkpointCertificate :=
      (i.checkpointCertificate.addMsg (checkpointParams info myId) msg replicaId).2 }

def isCheckpointCertificateComplete : Bool :=
  i.checkpointCertificate.isComplete

/-- The own message of the checkpoint. -/
def selfCheckpointMsg : Option CheckpointMsg :=
  i.checkpointCertificate.selfMsg (checkpointParams info myId)

def tryToMarkCheckpointCertificateCompleted : CheckpointInfo :=
  { i with checkpointCertificate :=
      i.checkpointCertificate.tryToMarkComplete (checkpointParams info myId) }

/-- `setStateAsStable` on the own message -/
def setStateAsStable : CheckpointInfo :=
  let msgs := i.checkpointCertificate.msgsFromReplicas.map fun m =>
    if m.1 = myId then (m.1, { m.2 with isStableState := true }) else m
  { i with checkpointCertificate := { i.checkpointCertificate with msgsFromReplicas := msgs } }

def checkpointSentAllOrApproved : Bool := i.sentToAllOrApproved

/-- The own message was sent to all. -/
def setCheckpointSentAllOrApproved : CheckpointInfo :=
  { i with sentToAllOrApproved := true }

end CheckpointInfo

end ConcordBft
