import ConcordBft.Messages
import ConcordBft.Lib.Machine

set_option autoImplicit false

/-! # Fast path proofs (`PartialProofsSet.cpp`)

On the fast path the replicas send their shares on a PrePrepare to collectors, and whoever has enough
of them combines them to a full commit proof. The own share is added as soon as the PrePrepare is
known; peers may be earlier. A full proof is only accepted once the own share fixes the digest and
the key it has to verify with.

As for the other collectors, a running job is part of the state. -/

namespace ConcordBft

open Checked

/-- A share of a proof of the fast path. -/
structure PartialCommitProofMsg where
  senderId : ReplicaId
  viewNumber : ViewNum
  seqNumber : SeqNum
  commitPath : CommitPath
deriving DecidableEq, Repr

/-- A proof that a number is committed. -/
structure FullCommitProofMsg where
  senderId : ReplicaId
  viewNumber : ViewNum
  seqNumber : SeqNum
  thresholSignature : Bytes
deriving DecidableEq, Repr

def PartialCommitProofMsg.ToActualMsgType (cfg : ReplicaConfig) (m : PartialCommitProofMsg) : Bool :=
  cfg.isIdOfPeerReplica m.senderId &&
    !(m.commitPath == .FAST_WITH_THRESHOLD && cfg.cVal == 0) && m.commitPath != .SLOW &&
    cfg.isCollectorForPartialProofs cfg.myId m.viewNumber m.seqNumber

/-- The key of the shares on a path: `thresholdVerifier(cPath)`. -/
def CommitPath.thresholdKey : CommitPath → ThresholdKey
  | .OPTIMISTIC_FAST => .OptimisticCommit
  | _ => .Commit

/-- A job that combines shares to a full proof. -/
structure AsynchProofCreationJob where
  key : ThresholdKey
  expectedDigest : Digest
  seqNumber : SeqNum
  view : ViewNum
deriving DecidableEq, Repr

/-- The shares of the fast path for one number. -/
structure PartialProofsSet where
  seqNumber : SeqNum := 0
  fullCommitProof : Option FullCommitProofMsg := none
  selfPartialCommitProof : Option PartialCommitProofMsg := none
  participatingReplicasInFast : List ReplicaId := []
  participatingReplicasInOptimisticFast : List ReplicaId := []
  expectedDigest : Digest := Digest.zero
  job : Option AsynchProofCreationJob := none
deriving DecidableEq, Repr

namespace PartialProofsSet

variable (cfg : ReplicaConfig) (p : PartialProofsSet)

/-- Whether the number is proved. -/
def hasFullProof : Bool := p.fullCommitProof.isSome

/-- The full proof. -/
def getFullProof : Option FullCommitProofMsg := p.fullCommitProof

/-- The own share. -/
def getSelfPartialCommitProof : Option PartialCommitProofMsg :=
  p.selfPartialCommitProof

/-- Whether the replica has sent a share. -/
def hasPartialProofFromReplica (repId : ReplicaId) : Bool :=
  p.participatingReplicasInOptimisticFast.contains repId ||
    p.participatingReplicasInFast.contains repId

/-- The replicas whose shares for the path are in the accumulator, the own share apart. -/
def participating : CommitPath → List ReplicaId
  | .OPTIMISTIC_FAST => p.participatingReplicasInOptimisticFast
  | _ => p.participatingReplicasInFast

/-- The replica takes part in a path. -/
def addParticipating (repId : ReplicaId) : CommitPath → PartialProofsSet
  | .OPTIMISTIC_FAST => { p with
      participatingReplicasInOptimisticFast := p.participatingReplicasInOptimisticFast ++ [repId] }
  | _ => { p with participatingReplicasInFast := p.participatingReplicasInFast ++ [repId] }

/-- Are all shares of the path there? -/
def ready (cPath : CommitPath) : Bool :=
  (p.participating cPath).length == cfg.requiredSignatures cPath.thresholdKey - 1

def tryToCreateFullProof : Except Failure PartialProofsSet := do
  Assert (p.fullCommitProof = none)
  match p.selfPartialCommitProof with
  | none => pure p
  | some myPCP =>
    let j : AsynchProofCreationJob :=
      ⟨myPCP.commitPath.thresholdKey, p.expectedDigest, myPCP.seqNumber, myPCP.viewNumber⟩
    if p.ready cfg myPCP.commitPath then pure { p with job := some j } else pure p

/-- `addImp`; the share itself goes to the accumulator. -/
def addImp (cPath : CommitPath) : Except Failure PartialProofsSet :=
  if p.ready cfg cPath = true ∧ p.selfPartialCommitProof.isSome = true then
    p.tryToCreateFullProof cfg
  else pure p

def addSelfMsgAndPPDigest (m : PartialCommitProofMsg)
    (digest : Digest) : Except Failure PartialProofsSet := do
  Assert (m.senderId = cfg.myId)
  Assert (p.seqNumber = 0)
  Assert (p.expectedDigest.isZero = true)
  Assert (p.selfPartialCommitProof = none)
  Assert (p.fullCommitProof = none)
  addImp cfg { p with
    seqNumber := m.seqNumber
    expectedDigest := digest
    selfPartialCommitProof := some m } m.commitPath

/-- A share of a peer. -/
def addPartial (m : PartialCommitProofMsg) : Except Failure (PartialProofsSet × Bool) := do
  let repId := m.senderId
  Assert (repId ≠ cfg.myId)
  Assert (p.seqNumber = 0 ∨ p.seqNumber = m.seqNumber)
  Assert (cfg.isIdOfReplica repId = true)
  let cPath := m.commitPath
  if p.fullCommitProof.isSome = true ∨
      p.selfPartialCommitProof.any (fun self => self.commitPath != cPath) = true ∨
      repId ∈ p.participating cPath ∨
      cfg.requiredSignatures cPath.thresholdKey - 1 ≤ (p.participating cPath).length then
    pure (p, false)
  else do
    let p ← (p.addParticipating repId cPath).addImp cfg cPath
    pure (p, true)

/-- `addMsg(FullCommitProofMsg*)` -/
def addFull (m : FullCommitProofMsg) : PartialProofsSet × Bool :=
  match p.fullCommitProof, p.selfPartialCommitProof with
  | none, some myPCP =>
    if m.seqNumber = myPCP.seqNumber ∧ m.viewNumber = myPCP.viewNumber ∧
        cfg.verify myPCP.commitPath.thresholdKey p.expectedDigest m.thresholSignature = true then
      ({ p with fullCommitProof := some m }, true)
    else (p, false)
  | _, _ => (p, false)

/-! ## What the operations keep -/

/-- The invariant: without the own share the set is open, and a full proof verifies with the key of
    the own share. -/
structure Inv : Prop where
  open_of_noSelf : p.selfPartialCommitProof = none →
    p.seqNumber = 0 ∧ p.expectedDigest = Digest.zero ∧ p.fullCommitProof = none ∧ p.job = none
  full_verified : ∀ m, p.fullCommitProof = some m → ∃ self, p.selfPartialCommitProof = some self ∧
    cfg.verify self.commitPath.thresholdKey p.expectedDigest m.thresholSignature = true
  job_verified : ∀ j, p.job = some j → ∃ self, p.selfPartialCommitProof = some self ∧
    j = ⟨self.commitPath.thresholdKey, p.expectedDigest, self.seqNumber, self.viewNumber⟩

variable {cfg p} {m : PartialCommitProofMsg}

theorem inv_empty : Inv cfg {} where
  open_of_noSelf := fun _ => ⟨rfl, rfl, rfl, rfl⟩
  full_verified := nofun
  job_verified := nofun

section

variable (i : ReplicaId) (cPath : CommitPath)

@[simp] theorem addParticipating_self :
    (p.addParticipating i cPath).selfPartialCommitProof = p.selfPartialCommitProof := by
  cases cPath <;> rfl

@[simp] theorem addParticipating_full :
    (p.addParticipating i cPath).fullCommitProof = p.fullCommitProof := by
  cases cPath <;> rfl

@[simp] theorem addParticipating_seqNumber :
    (p.addParticipating i cPath).seqNumber = p.seqNumber := by
  cases cPath <;> rfl

@[simp] theorem addParticipating_digest :
    (p.addParticipating i cPath).expectedDigest = p.expectedDigest := by
  cases cPath <;> rfl

@[simp] theorem addParticipating_job : (p.addParticipating i cPath).job = p.job := by
  cases cPath <;> rfl

theorem addParticipating_inv (h : Inv cfg p) : Inv cfg (p.addParticipating i cPath) := by
  refine ⟨?_, ?_, ?_⟩
  · simpa using h.open_of_noSelf
  · simpa using h.full_verified
  · simpa using h.job_verified

end

variable (cfg p) in
/-- The job after `addImp`: the one before, or one for the own share with all shares of its path. -/
def Starts (j : Option AsynchProofCreationJob) : Prop :=
  j = p.job ∨ ∃ own, p.selfPartialCommitProof = some own ∧ p.ready cfg own.commitPath = true ∧
    j = some ⟨own.commitPath.thresholdKey, p.expectedDigest, own.seqNumber, own.viewNumber⟩

theorem Inv.startJob (h : Inv cfg p) {j : Option AsynchProofCreationJob} (hj : Starts cfg p j) :
    Inv cfg { p with job := j } := by
  rcases hj with rfl | ⟨own, hown, -, rfl⟩
  · exact h
  · refine ⟨fun hno => absurd (hown.symm.trans hno) (by simp), h.full_verified, fun j hj => ?_⟩
    exact ⟨own, hown, (Option.some.inj hj).symm⟩

/-- `addImp` may start a job and does nothing else. -/
theorem addImp_spec (cfg : ReplicaConfig) (hfull : p.fullCommitProof = none) (cPath : CommitPath) :
    ∃ j, p.addImp cfg cPath = .ok { p with job := j } ∧ Starts cfg p j := by
  unfold addImp
  split_ifs with hready
  · unfold tryToCreateFullProof
    simp only [Assert, require_of hfull]
    split
    next => exact ⟨p.job, rfl, Or.inl rfl⟩
    next own hown =>
      by_cases hr : p.ready cfg own.commitPath = true
      · rw [if_pos hr]
        exact ⟨_, rfl, Or.inr ⟨own, hown, hr, rfl⟩⟩
      · rw [if_neg hr]
        exact ⟨p.job, rfl, Or.inl rfl⟩
  · exact ⟨p.job, rfl, Or.inl rfl⟩

/-- The set with the own share. -/
def withSelf (p : PartialProofsSet) (m : PartialCommitProofMsg) (digest : Digest) :
    PartialProofsSet :=
  { p with
    seqNumber := m.seqNumber
    expectedDigest := digest
    selfPartialCommitProof := some m }

theorem addSelfMsgAndPPDigest_spec (h : Inv cfg p) (hno : p.selfPartialCommitProof = none)
    (hm : m.senderId = cfg.myId) (digest : Digest) :
    ∃ j, p.addSelfMsgAndPPDigest cfg m digest = .ok { p.withSelf m digest with job := j } ∧
      Starts cfg (p.withSelf m digest) j ∧ Inv cfg { p.withSelf m digest with job := j } := by
  obtain ⟨hseq, hdig, hfull, hjob⟩ := h.open_of_noSelf hno
  have hzero : p.expectedDigest.isZero = true := by rw [hdig]; rfl
  have hinv : Inv cfg (p.withSelf m digest) := by
    refine ⟨fun h => absurd h (by simp [withSelf]), fun m hm => ?_, fun j hj => ?_⟩
    · exact absurd (hfull.symm.trans hm) (by simp)
    · exact absurd (hjob.symm.trans hj) (by simp)
  obtain ⟨j, hj, hstarts⟩ := addImp_spec cfg (p := p.withSelf m digest) hfull m.commitPath
  unfold addSelfMsgAndPPDigest
  simp only [Assert, require_of hm, require_of hseq, require_of hzero, require_of hno,
    require_of hfull]
  exact ⟨j, hj, hstarts, hinv.startJob hstarts⟩

/-- What the set does with a share of a peer: it ignores it, or it counts it as one of its path. -/
def Takes (cfg : ReplicaConfig) (p : PartialProofsSet) (m : PartialCommitProofMsg)
    (r : PartialProofsSet × Bool) : Prop :=
  r = (p, false) ∨ ∃ j, r = ({ p.addParticipating m.senderId m.commitPath with job := j }, true) ∧
    Starts cfg (p.addParticipating m.senderId m.commitPath) j ∧ p.fullCommitProof = none ∧
    (∀ own, p.selfPartialCommitProof = some own → own.commitPath = m.commitPath) ∧
    m.senderId ∉ p.participating m.commitPath ∧
    (p.participating m.commitPath).length < cfg.requiredSignatures m.commitPath.thresholdKey - 1

theorem addPartial_spec (hid : m.senderId ≠ cfg.myId) (hrep : cfg.isIdOfReplica m.senderId = true)
    (hseq : p.seqNumber = 0 ∨ p.seqNumber = m.seqNumber) :
    ∃ r, p.addPartial cfg m = .ok r ∧ Takes cfg p m r := by
  unfold addPartial
  simp only [Assert, require_of hid, require_of hseq, require_of hrep]
  split_ifs with hskip
  · exact ⟨_, rfl, Or.inl rfl⟩
  simp only [not_or, Bool.not_eq_true, Option.isSome_eq_false_iff, Option.isNone_iff_eq_none,
    Option.any_eq_false, bne_eq_false_iff_eq, not_le] at hskip
  obtain ⟨hfull, hpath, hnew, hroom⟩ := hskip
  obtain ⟨j, hj, hstarts⟩ := addImp_spec cfg
    (p := p.addParticipating m.senderId m.commitPath) (by simp [hfull]) m.commitPath
  rw [hj]
  exact ⟨_, rfl, Or.inr ⟨j, rfl, hstarts, hfull, hpath, hnew, hroom⟩⟩

/-- A share of a peer leaves the own share, the digest and the full proof alone. -/
theorem Takes.keeps {r : PartialProofsSet × Bool} (ht : Takes cfg p m r) (h : Inv cfg p) :
    Inv cfg r.1 ∧ r.1.selfPartialCommitProof = p.selfPartialCommitProof ∧
      r.1.expectedDigest = p.expectedDigest ∧ r.1.seqNumber = p.seqNumber ∧
      r.1.fullCommitProof = p.fullCommitProof ∧ (r.2 = true → p.fullCommitProof = none) := by
  rcases ht with rfl | ⟨j, rfl, hstarts, hfull, -⟩
  · exact ⟨h, rfl, rfl, rfl, rfl, nofun⟩
  · exact ⟨(addParticipating_inv _ _ h).startJob hstarts, by simp, by simp, by simp, by simp,
      fun _ => hfull⟩

/-- A full proof is taken when it is for the own share and verifies. -/
theorem addFull_spec (h : Inv cfg p) (m : FullCommitProofMsg) :
    ((p.addFull cfg m).2 = false ∧ (p.addFull cfg m).1 = p) ∨
    ((p.addFull cfg m).2 = true ∧ (p.addFull cfg m).1 = { p with fullCommitProof := some m } ∧
      p.fullCommitProof = none ∧ Inv cfg { p with fullCommitProof := some m } ∧
      ∃ self, p.selfPartialCommitProof = some self ∧ m.seqNumber = self.seqNumber ∧
        m.viewNumber = self.viewNumber ∧
        cfg.verify self.commitPath.thresholdKey p.expectedDigest m.thresholSignature = true) := by
  unfold addFull
  split
  next myPCP hfull hself =>
    split_ifs with hok
    · refine Or.inr ⟨rfl, rfl, hfull, ⟨fun hno => ?_, fun x hx => ?_, h.job_verified⟩, myPCP, hself,
        hok⟩
      · exact absurd (hself.symm.trans hno) (by simp)
      · obtain rfl := Option.some.inj hx
        exact ⟨myPCP, hself, hok.2.2⟩
    · simp
  next => exact Or.inl ⟨rfl, rfl⟩

/-! ## Every order of arrival

The set together with the shares that were given to its accumulators. A job works on a copy of the
accumulator at its start, which is the one of the state that the starting call leads to. -/

@[simp] theorem participating_addParticipating (i : ReplicaId) (a b : CommitPath) :
    (p.addParticipating i a).participating b =
      if a.thresholdKey = b.thresholdKey then p.participating b ++ [i] else p.participating b := by
  cases a <;> cases b <;> rfl

theorem participating_eq {a b : CommitPath} (h : a.thresholdKey = b.thresholdKey) :
    p.participating a = p.participating b := by
  cases a <;> cases b <;> first | rfl | simp [CommitPath.thresholdKey] at h

/-- The calls that add something to a set. -/
inductive Call where
  | self (m : PartialCommitProofMsg) (digest : Digest)
  | peer (m : PartialCommitProofMsg)
  | full (m : FullCommitProofMsg)
  | reset

/-- The shares are for one of the two fast paths: a replica signs no others, and `ToActualMsgType`
    drops the others of its peers. -/
def Call.onFastPath : Call → Bool
  | .self m _ | .peer m => m.commitPath != .SLOW
  | .full _ | .reset => true

/-- A set with what its accumulators hold. -/
structure Collection where
  set : PartialProofsSet := {}
  thresholdAccumulator : ThresholdKey → List PartialCommitProofMsg := fun _ => []

namespace Collection

variable (cfg) (c : Collection)

/-- The accumulators after `thresholdAccumulator(cPath)->add(..)` in `addImp`. -/
def accumulate (m : PartialCommitProofMsg) (k : ThresholdKey) : List PartialCommitProofMsg :=
  if m.commitPath.thresholdKey = k then c.thresholdAccumulator k ++ [m]
  else c.thresholdAccumulator k

/-- A call; `none` is a failed assertion. -/
def next : Call → Option Collection
  | .self m digest =>
    match c.set.addSelfMsgAndPPDigest cfg m digest with
    | .ok p => some ⟨p, c.accumulate m⟩
    | .error _ => none
  | .peer m =>
    match c.set.addPartial cfg m with
    | .ok (p, added) => some ⟨p, if added then c.accumulate m else c.thresholdAccumulator⟩
    | .error _ => none
  | .full m => some { c with set := (c.set.addFull cfg m).1 }
  | .reset => some {}

/-- The sender of the own share, if it is one for this accumulator. -/
def ownIds (cPath : CommitPath) : List ReplicaId :=
  (c.set.selfPartialCommitProof.toList.filter fun own =>
    own.commitPath.thresholdKey = cPath.thresholdKey).map (·.senderId)

/-- The invariant: an accumulator holds the shares of the participating replicas and the own one. -/
structure Counted : Prop where
  inv : Inv cfg c.set
  path : ∀ k, ∀ m ∈ c.thresholdAccumulator k,
    m.commitPath ≠ .SLOW ∧ m.commitPath.thresholdKey = k
  peers : ∀ cPath, (c.set.participating cPath).Nodup ∧ cfg.myId ∉ c.set.participating cPath
  senders : ∀ cPath, ((c.thresholdAccumulator cPath.thresholdKey).map (·.senderId)).Perm
    (c.ownIds cPath ++ c.set.participating cPath)
  own : ∀ own, c.set.selfPartialCommitProof = some own → own.senderId = cfg.myId ∧
    own.commitPath ≠ .SLOW ∧ own ∈ c.thresholdAccumulator own.commitPath.thresholdKey
  job : ∀ own, c.set.job.isSome = true → c.set.selfPartialCommitProof = some own →
    c.set.ready cfg own.commitPath = true

variable {cfg c} {m : PartialCommitProofMsg}

theorem counted_empty : Counted cfg {} where
  inv := inv_empty
  path := by simp
  peers := by
    intro cPath
    cases cPath <;> simp [participating]
  senders := by
    intro cPath
    cases cPath <;> simp [participating, ownIds]
  own := by simp
  job := by simp

theorem path_accumulate (h : Counted cfg c) (hm : m.commitPath ≠ .SLOW) (k : ThresholdKey) :
    ∀ x ∈ c.accumulate m k, x.commitPath ≠ .SLOW ∧ x.commitPath.thresholdKey = k := by
  intro x hx
  unfold accumulate at hx
  split_ifs at hx with hk
  · rcases List.mem_append.1 hx with hx | hx
    · exact h.path k x hx
    · obtain rfl := List.mem_singleton.1 hx
      exact ⟨hm, hk⟩
  · exact h.path k x hx

theorem mem_accumulate {x : PartialCommitProofMsg} {k : ThresholdKey}
    (hx : x ∈ c.thresholdAccumulator k) : x ∈ c.accumulate m k := by
  unfold accumulate
  split_ifs
  · exact List.mem_append_left _ hx
  · exact hx

theorem Counted.self (h : Counted cfg c) (hm : m.commitPath ≠ .SLOW) (hid : m.senderId = cfg.myId)
    (hno : c.set.selfPartialCommitProof = none) (digest : Digest)
    {j : Option AsynchProofCreationJob} (hstarts : Starts cfg (c.set.withSelf m digest) j)
    (hinv : Inv cfg { c.set.withSelf m digest with job := j }) :
    Counted cfg ⟨{ c.set.withSelf m digest with job := j }, c.accumulate m⟩ where
  inv := hinv
  path := path_accumulate h hm
  peers := h.peers
  senders := by
    intro cPath
    have hold := h.senders cPath
    simp only [ownIds, hno] at hold
    by_cases hk : m.commitPath.thresholdKey = cPath.thresholdKey
    · simp only [accumulate, ownIds, withSelf, hk, if_true, List.map_append, Option.toList_some,
        List.filter_cons]
      exact (hold.append_right _).trans List.perm_append_comm
    · simp only [accumulate, ownIds, withSelf, hk, Option.toList_some, List.filter_cons]
      exact hold
  own := by
    intro own hown
    obtain rfl := Option.some.inj hown
    exact ⟨hid, hm, by simp [accumulate]⟩
  job := by
    intro own hjob hown
    rcases hstarts with hj | ⟨own', hown', hready, -⟩
    · -- no job runs before the own share is there
      have hnojob : c.set.job = none := (h.inv.open_of_noSelf hno).2.2.2
      simp [hj, withSelf, hnojob] at hjob
    · obtain rfl := Option.some.inj (hown'.symm.trans hown)
      exact hready

theorem Counted.peer (h : Counted cfg c) (hm : m.commitPath ≠ .SLOW) (hid : m.senderId ≠ cfg.myId)
    {p' : PartialProofsSet} {added : Bool} (ht : Takes cfg c.set m (p', added)) :
    Counted cfg ⟨p', if added then c.accumulate m else c.thresholdAccumulator⟩ := by
  obtain ⟨hinv, hself, -⟩ := ht.keeps h.inv
  rcases ht with heq | ⟨j, heq, hstarts, hfull, hpath, hnew, hroom⟩
  · obtain ⟨rfl, rfl⟩ := Prod.mk.inj heq
    exact h
  obtain ⟨rfl, rfl⟩ := Prod.mk.inj heq
  refine ⟨hinv, path_accumulate h hm, fun cPath => ?_, fun cPath => ?_, fun own hown => ?_,
    fun own hjob hown => ?_⟩
  · obtain ⟨hnodup, hmine⟩ := h.peers cPath
    change ((c.set.addParticipating m.senderId m.commitPath).participating cPath).Nodup ∧
      cfg.myId ∉ (c.set.addParticipating m.senderId m.commitPath).participating cPath
    rw [participating_addParticipating]
    split_ifs with hk
    · rw [participating_eq hk] at hnew
      have hlast := hnodup.append (List.nodup_singleton _) (List.disjoint_singleton.2 hnew)
      exact ⟨hlast, by simp [hmine, hid.symm]⟩
    · exact ⟨hnodup, hmine⟩
  · have hold := h.senders cPath
    change ((c.accumulate m cPath.thresholdKey).map (·.senderId)).Perm
      (_ ++ (c.set.addParticipating m.senderId m.commitPath).participating cPath)
    simp only [addParticipating_self] at hold ⊢
    rw [participating_addParticipating]
    unfold accumulate
    split_ifs with hk
    · rw [List.map_append, ← List.append_assoc]
      exact hold.append_right _
    · exact hold
  · obtain ⟨hown, hslow, hmem⟩ := h.own own (hself ▸ hown)
    exact ⟨hown, hslow, mem_accumulate hmem⟩
  · rcases hstarts with hj | ⟨own', hown', hready, -⟩
    · -- a job runs only with all shares of the path, and then no share is taken any more
      have hjob' : c.set.job.isSome = true := by simpa [hj] using hjob
      have hready := h.job own hjob' (hself ▸ hown)
      rw [hpath own (hself ▸ hown), ready, beq_iff_eq] at hready
      omega
    · obtain rfl := Option.some.inj (hown'.symm.trans hown)
      exact hready

theorem Counted.next {c' : Collection} {call : Call} (h : Counted cfg c) (hfast : call.onFastPath = true)
    (hn : c.next cfg call = some c') : Counted cfg c' := by
  cases call with
  | self m digest =>
    simp only [Collection.next] at hn
    split at hn
    next p hp =>
      obtain rfl := Option.some.inj hn
      obtain ⟨hid, hrest⟩ := require_bind_eq_ok hp
      obtain ⟨-, hrest⟩ := require_bind_eq_ok hrest
      obtain ⟨-, hrest⟩ := require_bind_eq_ok hrest
      obtain ⟨hno, -⟩ := require_bind_eq_ok hrest
      obtain ⟨j, hj, hstarts, hinv⟩ := addSelfMsgAndPPDigest_spec h.inv hno hid digest
      obtain rfl := Except.ok.inj (hp.symm.trans hj)
      exact h.self (bne_iff_ne.1 hfast) hid hno digest hstarts hinv
    next => simp at hn
  | peer m =>
    simp only [Collection.next] at hn
    split at hn
    next p added hp =>
      obtain rfl := Option.some.inj hn
      obtain ⟨hid, hrest⟩ := require_bind_eq_ok hp
      obtain ⟨hseq, hrest⟩ := require_bind_eq_ok hrest
      obtain ⟨hrep, -⟩ := require_bind_eq_ok hrest
      obtain ⟨r, hr, ht⟩ := addPartial_spec hid hrep hseq
      obtain rfl := Except.ok.inj (hp.symm.trans hr)
      exact h.peer (bne_iff_ne.1 hfast) hid ht
    next => simp at hn
  | full m =>
    obtain rfl := Option.some.inj hn
    rcases addFull_spec h.inv m with ⟨-, heq⟩ | ⟨-, heq, -, hinv, -⟩
    · rw [heq]
      exact h
    · rw [heq]
      exact ⟨hinv, h.path, h.peers, h.senders, h.own, h.job⟩
  | reset =>
    obtain rfl := Option.some.inj hn
    exact counted_empty

end Collection

end PartialProofsSet

end ConcordBft
