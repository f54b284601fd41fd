import ConcordBft.ViewChangeSafetyLogic

set_option autoImplicit false

/-! # Configuration and messages

What a replica is configured with (`ReplicaConfig.hpp`) and the messages of the agreement and of the
view change. Cryptography is a parameter: a threshold scheme is its `verify`, and a hash is a
function. The share that a partial message carries is read by an accumulator only, in a background
job whose outcome is an input of the model, so partial messages have no signature field. -/

namespace ConcordBft

/-- The longest message that is taken from the network. -/
def maxExternalMessageSize : ℕ := 64000

/-! ## Client requests (`ClientRequestMsg.hpp`) -/

/-- `ToActualMsgType` accepts a message that is at least as long as its header and the request, so
    other bytes may follow the request. -/
structure ClientRequestMsg where
  clientProxyId : NodeIdType
  requestSeqNum : ReqId
  isReadOnly : Bool
  request : Bytes
  /-- the number of the bytes after the request -/
  trailing : ℕ := 0
deriving DecidableEq, Repr

namespace ClientRequestMsg

/-- The bytes of the request itself. -/
def requestLength (m : ClientRequestMsg) : ℕ := m.request.length

/-- `sizeof(ClientRequestMsgHeader)` is 17. -/
def getRequestSizeTemp (m : ClientRequestMsg) : ℕ := 17 + m.requestLength

/-- The bytes of the message. -/
def size (m : ClientRequestMsg) : ℕ := m.getRequestSizeTemp + m.trailing

end ClientRequestMsg

/-! ## Configuration -/

/-- The keys of the threshold schemes. -/
inductive ThresholdKey where
  /-- `thresholdVerifierForSlowPathCommit`, `2F + C + 1` shares -/
  | SlowPathCommit
  /-- `thresholdVerifierForCommit`, `3F + C + 1` shares -/
  | Commit
  /-- `thresholdVerifierForOptimisticCommit`, all shares -/
  | OptimisticCommit
deriving DecidableEq, Repr

/-- The constructor of `ReplicaImp` asserts the bounds on `myId` and `concurrencyLevel`. -/
structure ReplicaConfig extends ReplicasInfo where
  myId : ReplicaId
  numOfClientProxies : ℕ
  concurrencyLevel : ℕ
  viewChangeProtocolEnabled : Bool
  /-- `verify` of the scheme with the given key -/
  verify : ThresholdKey → Digest → Bytes → Bool
  /-- `DigestUtil::compute` over the requests of a PrePrepare -/
  computeRequests : List ClientRequestMsg → Digest
  /-- `DigestUtil::compute` over the body of a `ViewChangeMsg` -/
  getMsgDigest : ViewChangeMsg → Digest
  /-- `Digest::digestOfDigest` -/
  digestOfDigest : Digest → Digest
  myId_lt : myId < toReplicasInfo.numberOfReplicas
  concurrencyLevel_pos : 0 < concurrencyLevel
  concurrencyLevel_le : concurrencyLevel ≤ maxLegalConcurrentAgreementsByPrimary

namespace ReplicaConfig

variable (cfg : ReplicaConfig)

/-- How far the primary may be ahead. -/
def maxConcurrentAgreementsByPrimary : Int := cfg.concurrencyLevel

/-- How many shares a combined signature needs. -/
def requiredSignatures : ThresholdKey → ℕ
  | .SlowPathCommit => 2 * cfg.fVal + cfg.cVal + 1
  | .Commit => 3 * cfg.fVal + cfg.cVal + 1
  | .OptimisticCommit => 3 * cfg.fVal + 2 * cfg.cVal + 1

/-- The view change logic of the system. -/
def safetyLogic : ViewChangeSafetyLogic where
  F := cfg.fVal
  C := cfg.cVal
  preparedCertVerifier := cfg.verify .SlowPathCommit

/-- `idsOfPeerReplicas` -/
def idsOfPeerReplicas : List ReplicaId :=
  (List.range cfg.numberOfReplicas).filter fun i => i != cfg.myId

def isIdOfPeerReplica (id : NodeIdType) : Bool := cfg.isIdOfReplica id && id != cfg.myId

end ReplicaConfig

namespace ReplicasInfo

/-- A collector is not the primary. -/
def skipPrimary (info : ReplicasInfo) (primary collector : Int) : Int :=
  let n : Int := info.numberOfReplicas
  if primary ≤ collector then
    let next := (collector + 1).tmod n
    if next = primary then (next + 1).tmod n else next
  else collector

/-- The replicas that collect the shares of the fast path for a number. -/
def getCollectorsForPartialProofs (info : ReplicasInfo) (v : ViewNum) (seq : SeqNum) : List Int :=
  let n : Int := info.numberOfReplicas
  let primary := asInt16 (info.primaryOfView v)
  if info.cVal = 0 then [info.skipPrimary primary (seq.tmod n)]
  else
    let half := n / 2
    let collector1 := seq.tmod half
    [info.skipPrimary primary collector1, info.skipPrimary primary (collector1 + half)]

def isCollectorForPartialProofs (info : ReplicasInfo) (id : ReplicaId) (v : ViewNum)
    (seq : SeqNum) : Bool :=
  (info.getCollectorsForPartialProofs v seq).contains (id : Int)

end ReplicasInfo

/-! ## PrePrepares (`PrePrepareMsg.cpp`) -/

/-- A proposal for a number. -/
structure PrePrepareMsg where
  senderId : ReplicaId
  viewNumber : ViewNum
  seqNumber : SeqNum
  firstPath : CommitPath
  isNull : Bool
  digestOfRequests : Digest
  requests : List ClientRequestMsg
deriving DecidableEq, Repr

namespace PrePrepareMsg

def createNullPrePrepareMsg (sender : ReplicaId) (v : ViewNum) (s : SeqNum) : PrePrepareMsg where
  senderId := sender
  viewNumber := v
  seqNumber := s
  firstPath := .SLOW
  isNull := true
  digestOfRequests := Digest.nullDigest
  requests := []

def updateView (m : PrePrepareMsg) (v : ViewNum) : PrePrepareMsg :=
  { m with viewNumber := v, firstPath := .SLOW }

/-- What `ToActualMsgType` checks on a message from the network. -/
def ToActualMsgType (cfg : ReplicaConfig) (m : PrePrepareMsg) : Bool :=
  cfg.isIdOfReplica m.senderId && m.senderId != cfg.myId && m.seqNumber != 0 && !m.isNull &&
    !(m.firstPath == .FAST_WITH_THRESHOLD && cfg.cVal == 0) && m.requests.length != 0 &&
    cfg.computeRequests m.requests == m.digestOfRequests

end PrePrepareMsg

/-! ## Signature shares (`SignedShareMsgs.hpp`) -/

/-- `PreparePartialMsg` and `CommitPartialMsg` -/
structure SignedSharePartial where
  senderId : ReplicaId
  viewNumber : ViewNum
  seqNumber : SeqNum
deriving DecidableEq, Repr

/-- `PrepareFullMsg` and `CommitFullMsg` -/
structure SignedShareFull where
  senderId : ReplicaId
  viewNumber : ViewNum
  seqNumber : SeqNum
  signatureBody : Bytes
deriving DecidableEq, Repr

/-! ## New view messages (`NewViewMsg.cpp`) -/

/-- The primary of a view lists the view change messages behind it. -/
structure NewViewMsg where
  senderId : ReplicaId
  newView : ViewNum
  elements : List (ReplicaId × Digest)
deriving DecidableEq, Repr

namespace NewViewMsg

/-- The ids are sorted, so the loop stops at the first one that is not smaller. -/
def includesFrom (replicaId : ReplicaId) (viewChangeReplica : Digest) :
    List (ReplicaId × Digest) → Bool
  | [] => false
  | (currId, viewChangeDigest) :: rest =>
    if currId = replicaId then viewChangeReplica == viewChangeDigest
    else if replicaId < currId then false
    else includesFrom replicaId viewChangeReplica rest

def includesViewChangeFromReplica (m : NewViewMsg) (replicaId : ReplicaId)
    (viewChangeReplica : Digest) : Bool :=
  includesFrom replicaId viewChangeReplica m.elements

def addElement (m : NewViewMsg) (replicaId : ReplicaId) (viewChangeDigest : Digest) :
    Except Failure NewViewMsg := do
  Assert (∀ e ∈ m.elements.getLast?, e.1 < replicaId)
  pure { m with elements := m.elements ++ [(replicaId, viewChangeDigest)] }

/-- The elements of a received message: unique sorted ids and no zero digest. -/
def checkElements : List (ReplicaId × Digest) → Bool
  | [] => true
  | [e] => !e.2.isZero
  | e :: e' :: rest => !e.2.isZero && e.1 < e'.1 && checkElements (e' :: rest)

/-- What is accepted from the network. -/
def ToActualMsgType (cfg : ReplicaConfig) (m : NewViewMsg) : Bool :=
  cfg.isIdOfReplica m.senderId && m.senderId != cfg.myId &&
    cfg.primaryOfView m.newView == m.senderId &&
    m.elements.length == 2 * cfg.fVal + 2 * cfg.cVal + 1 && checkElements m.elements

end NewViewMsg

/-- What `ViewChangeMsg::ToActualMsgType` checks; that the message was signed by the replica it
    names is a property of the network. -/
def ViewChangeMsg.ToActualMsgType (cfg : ReplicaConfig) (m : ViewChangeMsg) : Bool :=
  cfg.isIdOfReplica m.genReplicaId && m.genReplicaId != cfg.myId && m.checkElements

/-! ## A small system -/

theorem one_le_maxLegalConcurrentAgreements : 1 ≤ maxLegalConcurrentAgreementsByPrimary := by
  decide

/-- Four replicas (`F = 1`, `C = 0`) and one client, with signatures of one byte. -/
def fourReplicas (myId : Fin 4) : ReplicaConfig where
  fVal := 1
  cVal := 0
  myId := myId
  numOfClientProxies := 1
  concurrencyLevel := 1
  viewChangeProtocolEnabled := true
  verify := fun _ _ sig => sig.length == 1
  computeRequests := fun requests => BitVec.ofNat 256 (1 + requests.length)
  getMsgDigest := fun _ => 5#256
  digestOfDigest := id
  myId_lt := myId.isLt
  concurrencyLevel_pos := Nat.one_pos
  concurrencyLevel_le := one_le_maxLegalConcurrentAgreements

/-! ## Collectors -/

namespace ReplicasInfo

/-- Behind the last replica the collectors start again at 0, or at 1 if 0 is the primary. -/
theorem skipPrimary_eq (info : ReplicasInfo) (hf : 1 ≤ info.fVal) {primary collector : Int}
    (h0 : 0 ≤ collector) (hc : collector < info.numberOfReplicas) :
    info.skipPrimary primary collector =
      if collector < primary then collector
      else if collector + 1 < info.numberOfReplicas then collector + 1
      else if primary = 0 then 1 else 0 := by
  have hn : (4 : Int) ≤ info.numberOfReplicas := by unfold numberOfReplicas; omega
  have htmod : ∀ x : Int, 0 ≤ x → x < info.numberOfReplicas → x.tmod info.numberOfReplicas = x :=
    fun x hx hlt => Int.tmod_eq_of_lt hx hlt
  unfold skipPrimary
  dsimp only
  by_cases hlt : collector + 1 < info.numberOfReplicas
  · rw [htmod _ (by omega) hlt]
    split_ifs <;> omega
  · -- the last replica
    have hlast : collector + 1 = info.numberOfReplicas := by omega
    rw [hlast, Int.tmod_self, htmod _ (by omega) (by omega)]
    split_ifs <;> omega

/-- The primary as an `int16_t` is the remainder again: negative for a negative view. -/
theorem asInt16_primaryOfView {info : ReplicasInfo} (hn : info.numberOfReplicas < 2 ^ 15)
    (v : ViewNum) : asInt16 (info.primaryOfView v) = v.tmod info.numberOfReplicas ∧
      v.tmod info.numberOfReplicas < info.numberOfReplicas ∧
      ∀ collector : Int, 0 ≤ collector → collector < info.numberOfReplicas →
        (collector = info.primaryOfView v ↔ collector = v.tmod info.numberOfReplicas) := by
  have hpos : (0 : Int) < info.numberOfReplicas := by
    unfold numberOfReplicas
    omega
  have hlt := Int.tmod_lt_of_pos v hpos
  have hgt := Int.lt_tmod_of_pos v hpos
  unfold primaryOfView asUInt16
  refine ⟨?_, hlt, fun collector h0 hc => by omega⟩
  generalize v.tmod info.numberOfReplicas = t at *
  unfold asInt16 Int.bmod
  dsimp only
  split_ifs <;> omega

/-- **The collectors of a number** are one or two replicas that are not the primary, and every replica
    knows them: in every view, for every number that is not negative. -/
theorem collectors_of_replicas (cfg cfg' : ReplicaConfig)
    (hsame : cfg'.toReplicasInfo = cfg.toReplicasInfo) (hf : 1 ≤ cfg.fVal)
    (hsize : cfg.numberOfReplicas < 2 ^ 15) (v : ViewNum) (seq : ℕ) :
    (cfg.getCollectorsForPartialProofs v seq).length = (if cfg.cVal = 0 then 1 else 2) ∧
      (cfg.getCollectorsForPartialProofs v seq).Nodup ∧
      (∀ collector ∈ cfg.getCollectorsForPartialProofs v seq, 0 ≤ collector ∧
        collector < cfg.numberOfReplicas ∧ collector ≠ cfg.primaryOfView v) ∧
      cfg'.getCollectorsForPartialProofs v seq = cfg.getCollectorsForPartialProofs v seq ∧
      ∀ id : ReplicaId, cfg'.isCollectorForPartialProofs id v seq = true ↔
        (id : Int) ∈ cfg.getCollectorsForPartialProofs v seq := by
  have hn : (cfg.numberOfReplicas : Int) = 3 * cfg.fVal + 2 * cfg.cVal + 1 := by
    simp [numberOfReplicas]
  have hresidue : ∀ m : Int, 0 < m → 0 ≤ (seq : Int).tmod m ∧ (seq : Int).tmod m < m := by
    intro m hm
    rw [Int.tmod_eq_emod_of_nonneg (by omega)]
    exact ⟨Int.emod_nonneg _ (by omega), Int.emod_lt_of_pos _ hm⟩
  obtain ⟨hprimary, hlast, hother⟩ := asInt16_primaryOfView hsize v
  -- it is enough that the collectors differ from the remainder
  have hdiffer : ∀ collector : Int, 0 ≤ collector ∧ collector < cfg.numberOfReplicas ∧
      collector ≠ v.tmod cfg.numberOfReplicas → 0 ≤ collector ∧ collector < cfg.numberOfReplicas ∧
      collector ≠ cfg.primaryOfView v :=
    fun collector h => ⟨h.1, h.2.1, fun heq => h.2.2 ((hother collector h.1 h.2.1).1 heq)⟩
  simp only [isCollectorForPartialProofs, getCollectorsForPartialProofs, hsame, hprimary]
  clear hother hsize hprimary
  generalize v.tmod cfg.numberOfReplicas = primary at *
  split_ifs with hc
  · obtain ⟨h0, hlt⟩ := hresidue cfg.numberOfReplicas (by omega)
    rw [skipPrimary_eq _ hf h0 hlt]
    refine ⟨rfl, by simp, ?_, trivial, by simp⟩
    simp only [List.mem_singleton, forall_eq]
    refine hdiffer _ ?_
    split_ifs <;> omega
  · obtain ⟨h0, hlt⟩ := hresidue (cfg.numberOfReplicas / 2) (by omega)
    rw [skipPrimary_eq _ hf h0 (by omega), skipPrimary_eq _ hf (by omega) (by omega)]
    refine ⟨rfl, ?_, ?_, trivial, by simp⟩
    · simp only [List.nodup_cons, List.mem_singleton, List.not_mem_nil, not_false_eq_true,
        List.nodup_nil, and_true]
      split_ifs <;> omega
    · simp only [List.mem_cons, List.not_mem_nil, or_false, forall_eq_or_imp, forall_eq]
      constructor <;> refine hdiffer _ ?_ <;> split_ifs <;> omega

theorem collectors_of_replicas_four :
    (fourReplicas 0).getCollectorsForPartialProofs (-1) 3 = [0] ∧
      ∀ id : ReplicaId, (fourReplicas 2).isCollectorForPartialProofs id (-1) 3 = true ↔
        (id : Int) ∈ (fourReplicas 0).getCollectorsForPartialProofs (-1) 3 :=
  ⟨by decide, (collectors_of_replicas (fourReplicas 0) (fourReplicas 2) rfl (by decide) (by decide)
    (-1) 3).2.2.2.2⟩

/-- The remainder of a negative sequence number is negative. -/
theorem collectors_of_negative :
    (fourReplicas 0).getCollectorsForPartialProofs 0 (-1) = [-1] := by decide

end ReplicasInfo

end ConcordBft
