import ConcordBft.SeqNumInfo

set_option autoImplicit false

/-! # What a slot of the log holds

`SeqNumInfo.Inv cfg v s info` is the invariant of the slot of number `s` in view `v`. It ties the
collectors to the PrePrepare: whatever signature the slot holds is one on the digest of its
PrePrepare, in this view and for this number, and without a PrePrepare nothing of the replica's own
is there. Each operation keeps it. -/

namespace ConcordBft

open Checked CollectorOfThresholdSignatures PartialProofsSet

/-- A combined signature that was sent for this view and number. -/
def SignedShareFull.IsFor (v : ViewNum) (s : SeqNum) (m : SignedShareFull) : Prop :=
  m.viewNumber = v ∧ m.seqNumber = s

namespace SeqNumInfo

variable (cfg : ReplicaConfig) (v : ViewNum) (s : SeqNum)

structure Inv (info : SeqNumInfo) : Prop where
  prepareInv : info.prepareSigCollector.Inv (cfg.verify .SlowPathCommit) (SignedShareFull.IsFor v s)
  commitInv : info.commitMsgsCollector.Inv (cfg.verify .SlowPathCommit) (SignedShareFull.IsFor v s)
  proofsInv : info.partialProofsSet.Inv cfg
  /-- Without a PrePrepare there is nothing of the replica's own. -/
  noPP : info.prePrepareMsg = none → info.primary = false ∧ info.forcedCompleted = false ∧
    info.prepareSigCollector.expectedSeqNumber = 0 ∧
    info.prepareSigCollector.hasPartialMsgFromReplica cfg.myId = false ∧
    info.commitMsgsCollector.expectedSeqNumber = 0 ∧
    info.partialProofsSet.selfPartialCommitProof = none
  pp : ∀ m, info.prePrepareMsg = some m → m.viewNumber = v ∧ m.seqNumber = s ∧
    info.prepareSigCollector.expectedSeqNumber = s ∧
    info.prepareSigCollector.expectedView = v ∧
    info.prepareSigCollector.expectedDigest =
      ReplicaConfig.prepareDigest v s m.digestOfRequests
  /-- Commit signatures are collected only after the number was prepared. -/
  commit : info.commitMsgsCollector.expectedSeqNumber ≠ 0 → ∃ m, info.prePrepareMsg = some m ∧
    info.commitMsgsCollector.expectedSeqNumber = s ∧
    info.commitMsgsCollector.expectedView = v ∧
    info.commitMsgsCollector.expectedDigest = cfg.commitDigest v s m.digestOfRequests ∧
    info.prepareSigCollector.combinedValidSignatureMsg.isSome = true
  noCommit : info.commitMsgsCollector.expectedSeqNumber = 0 →
    info.commitMsgsCollector.hasPartialMsgFromReplica cfg.myId = false
  proofs : ∀ p, info.partialProofsSet.selfPartialCommitProof = some p → ∃ m,
    info.prePrepareMsg = some m ∧ p.viewNumber = v ∧ p.seqNumber = s ∧
    p.commitPath = m.firstPath ∧ info.partialProofsSet.seqNumber = s ∧
    info.partialProofsSet.expectedDigest = ReplicaConfig.prepareDigest v s m.digestOfRequests
  forced : info.forcedCompleted = true → info.partialProofsSet.fullCommitProof.isSome = true

/-- What an operation that does not take a PrePrepare leaves as it was. -/
structure Keeps (info info' : SeqNumInfo) : Prop where
  pp_eq : info'.prePrepareMsg = info.prePrepareMsg
  prepared : ∀ m, info.prepareSigCollector.combinedValidSignatureMsg = some m →
    info'.prepareSigCollector.combinedValidSignatureMsg = some m
  fullProof : ∀ m, info.partialProofsSet.fullCommitProof = some m →
    info'.partialProofsSet.fullCommitProof = some m
  selfProof : ∀ m, info.partialProofsSet.selfPartialCommitProof = some m →
    info'.partialProofsSet.selfPartialCommitProof = some m

theorem Keeps.refl (info : SeqNumInfo) : Keeps info info :=
  ⟨rfl, fun _ h => h, fun _ h => h, fun _ h => h⟩

/-- An operation that neither takes a PrePrepare nor commits the number. -/
structure Quiet (info info' : SeqNumInfo) : Prop where
  inv : Inv cfg v s info'
  keeps : Keeps info info'
  committed_eq : info'.isCommitted = info.isCommitted

variable {cfg v s} {info : SeqNumInfo} {c : CollectorOfThresholdSignatures} {m pp : PrePrepareMsg}

theorem Inv.not_committed (h : Inv cfg v s info)
    (hzero : info.commitMsgsCollector.expectedSeqNumber = 0)
    (hforced : info.forcedCompleted = false) : info.isCommitted = false := by
  have hvalid : info.commitMsgsCollector.combinedValidSignatureMsg = none := by
    cases hm : info.commitMsgsCollector.combinedValidSignatureMsg with
    | none => rfl
    | some m => exact absurd hzero (h.commitInv.valid_verified m hm).1
  simp [isCommitted, isComplete, hforced, hvalid]

theorem inv_empty : Inv cfg v s {} where
  prepareInv := CollectorOfThresholdSignatures.inv_empty
  commitInv := CollectorOfThresholdSignatures.inv_empty
  proofsInv := PartialProofsSet.inv_empty
  noPP := fun _ => ⟨rfl, rfl, rfl, rfl, rfl, rfl⟩
  pp := nofun
  commit := fun h => absurd rfl h
  noCommit := fun _ => rfl
  proofs := nofun
  forced := nofun

/-! ## Replacing one part of a slot -/

theorem Inv.withPrepare (h : Inv cfg v s info) {c : CollectorOfThresholdSignatures}
    (hc : c.Inv (cfg.verify .SlowPathCommit) (SignedShareFull.IsFor v s))
    (hseq : c.expectedSeqNumber = info.prepareSigCollector.expectedSeqNumber)
    (hview : c.expectedView = info.prepareSigCollector.expectedView)
    (hdigest : c.expectedDigest = info.prepareSigCollector.expectedDigest)
    (hvalid : info.prepareSigCollector.combinedValidSignatureMsg.isSome = true →
      c.combinedValidSignatureMsg.isSome = true)
    (hself : info.prePrepareMsg = none → c.hasPartialMsgFromReplica cfg.myId = false) :
    Inv cfg v s { info with prepareSigCollector := c } := by
  refine { h with prepareInv := hc, noPP := ?_, pp := ?_, commit := ?_ }
  · intro hnone
    obtain ⟨hprim, hforced, hexp, -, hcom, hproof⟩ := h.noPP hnone
    exact ⟨hprim, hforced, hseq.trans hexp, hself hnone, hcom, hproof⟩
  · intro m hm
    obtain ⟨hmv, hms, hexp, hexpv, hexpd⟩ := h.pp m hm
    exact ⟨hmv, hms, hseq.trans hexp, hview.trans hexpv, hdigest.trans hexpd⟩
  · intro hne
    obtain ⟨m, hm, hcs, hcv, hcd, hsome⟩ := h.commit hne
    exact ⟨m, hm, hcs, hcv, hcd, hvalid hsome⟩

theorem Inv.withCommit (h : Inv cfg v s info)
    (hc : c.Inv (cfg.verify .SlowPathCommit) (SignedShareFull.IsFor v s))
    (hseq : c.expectedSeqNumber = info.commitMsgsCollector.expectedSeqNumber)
    (hview : c.expectedView = info.commitMsgsCollector.expectedView)
    (hdigest : c.expectedDigest = info.commitMsgsCollector.expectedDigest)
    (hself : c.expectedSeqNumber = 0 → c.hasPartialMsgFromReplica cfg.myId = false) :
    Inv cfg v s { info with commitMsgsCollector := c } := by
  refine { h with commitInv := hc, noPP := ?_, commit := ?_, noCommit := hself }
  · intro hnone
    obtain ⟨hprim, hforced, hexp, hpart, hcom, hproof⟩ := h.noPP hnone
    exact ⟨hprim, hforced, hexp, hpart, hseq.trans hcom, hproof⟩
  · intro hne
    obtain ⟨m, hm, hcs, hcv, hcd, hsome⟩ := h.commit (fun h0 => hne (hseq.trans h0))
    exact ⟨m, hm, hseq.trans hcs, hview.trans hcv, hdigest.trans hcd, hsome⟩

theorem Inv.withProofs (h : Inv cfg v s info) {p : PartialProofsSet} (hp : p.Inv cfg)
    (hself : p.selfPartialCommitProof = info.partialProofsSet.selfPartialCommitProof)
    (hdigest : p.expectedDigest = info.partialProofsSet.expectedDigest)
    (hseq : p.seqNumber = info.partialProofsSet.seqNumber)
    (hfull : info.partialProofsSet.fullCommitProof.isSome = true →
      p.fullCommitProof.isSome = true) :
    Inv cfg v s { info with partialProofsSet := p } := by
  refine { h with
    proofsInv := hp, noPP := ?_, proofs := ?_, forced := fun hf => hfull (h.forced hf) }
  · intro hnone
    obtain ⟨hprim, hforced, hexp, hpart, hcom, hproof⟩ := h.noPP hnone
    exact ⟨hprim, hforced, hexp, hpart, hcom, hself.trans hproof⟩
  · intro q hq
    obtain ⟨m, hm, hqv, hqs, hqp, hps, hpd⟩ := h.proofs q (hself.symm.trans hq)
    exact ⟨m, hm, hqv, hqs, hqp, hseq.trans hps, hdigest.trans hpd⟩

theorem Inv.startSlowPath (h : Inv cfg v s info) : Inv cfg v s info.startSlowPath := { h with }

theorem Keeps.startSlowPath (info : SeqNumInfo) : Keeps info info.startSlowPath :=
  { Keeps.refl info with }

/-- Shares and signatures that are collected leave a slot as prepared as it was. -/
theorem Inv.collectsPrepare (h : Inv cfg v s info)
    (hc : c.Inv (cfg.verify .SlowPathCommit) (SignedShareFull.IsFor v s))
    (hsame : SameTarget info.prepareSigCollector c)
    (hself : info.prePrepareMsg = none → c.hasPartialMsgFromReplica cfg.myId = false) :
    Quiet cfg v s info { info with prepareSigCollector := c } := by
  refine ⟨h.withPrepare hc hsame.seqNumber_eq hsame.view_eq hsame.digest_eq ?_ hself,
    { Keeps.refl info with prepared := fun x hx => hsame.valid_eq.trans hx }, rfl⟩
  intro hsome
  rw [hsame.valid_eq]
  exact hsome

theorem Inv.collectsCommit (h : Inv cfg v s info) {c : CollectorOfThresholdSignatures}
    (hc : c.Inv (cfg.verify .SlowPathCommit) (SignedShareFull.IsFor v s))
    (hsame : SameTarget info.commitMsgsCollector c)
    (hself : info.commitMsgsCollector.expectedSeqNumber = 0 →
      c.hasPartialMsgFromReplica cfg.myId = false) :
    Quiet cfg v s info { info with commitMsgsCollector := c } := by
  refine ⟨h.withCommit hc hsame.seqNumber_eq hsame.view_eq hsame.digest_eq fun h0 => ?_,
    { Keeps.refl info with }, by simp [isCommitted, isComplete, hsame.valid_eq]⟩
  exact hself (hsame.seqNumber_eq.symm.trans h0)

/-! ## Taking a PrePrepare -/

variable (cfg v s m) in
/-- The slot `info` takes the PrePrepare `m`. -/
structure Takes (info info' : SeqNumInfo) : Prop where
  inv : Inv cfg v s info'
  prePrepareMsg_eq : info'.prePrepareMsg = some m
  forced_eq : info'.forcedCompleted = false
  proofs_eq : info'.partialProofsSet = info.partialProofsSet
  commit_eq : info'.commitMsgsCollector = info.commitMsgsCollector

theorem setPrePrepare_spec (h : Inv cfg v s info) (hnone : info.prePrepareMsg = none)
    (hview : m.viewNumber = v) (hseq : m.seqNumber = s) (hs : s ≠ 0) (primary : Bool) :
    ∃ info', info.setPrePrepare cfg m primary = .ok info' ∧ Takes cfg v s m info info' := by
  obtain ⟨-, hforced, hexp, hpart, hcom, hproof⟩ := h.noPP hnone
  obtain ⟨c, hc, hinv, hcs, hcv, hcd, -⟩ := setExpected_spec cfg.requiredForSlowPath
    h.prepareInv hexp (s := m.seqNumber) (by rw [hseq]; exact hs) m.viewNumber
    (ReplicaConfig.prepareDigest m.viewNumber m.seqNumber m.digestOfRequests)
  unfold setPrePrepare
  rw [hc]
  refine ⟨_, rfl, ?_, rfl, hforced, rfl, rfl⟩
  subst hview hseq
  exact { h with
    prepareInv := hinv
    noPP := nofun
    pp := fun m' hm' => by
      obtain rfl := Option.some.inj hm'
      exact ⟨rfl, rfl, hcs, hcv, hcd⟩
    commit := fun hne => absurd hcom hne
    proofs := fun p hp => absurd (hproof.symm.trans hp) (by simp)
    forced := fun hf => absurd (hforced.symm.trans hf) (by simp) }

/-- A slot takes the first PrePrepare that comes. -/
theorem addPrePrepare_spec (h : Inv cfg v s info) (hview : m.viewNumber = v)
    (hseq : m.seqNumber = s) (hs : s ≠ 0) :
    (∃ m', info.prePrepareMsg = some m' ∧ info.addPrePrepare cfg m = .ok (info, false)) ∨
    (info.prePrepareMsg = none ∧ ∃ info', info.addPrePrepare cfg m = .ok (info', true) ∧
      Takes cfg v s m info info') := by
  unfold addPrePrepare
  cases hpp : info.prePrepareMsg with
  | some m' => exact Or.inl ⟨m', rfl, rfl⟩
  | none =>
    obtain ⟨hprim, hforced, -, hpart, -⟩ := h.noPP hpp
    obtain ⟨info', hset, htakes⟩ := setPrePrepare_spec h hpp hview hseq hs false
    refine Or.inr ⟨rfl, info', ?_, htakes⟩
    simp only [Assert, require_of hprim, require_of hforced, require_of hpart, hset]
    rfl

theorem addSelfPrePrepare_spec (h : Inv cfg v s info) (hnone : info.prePrepareMsg = none)
    (hview : m.viewNumber = v) (hseq : m.seqNumber = s) (hs : s ≠ 0)
    (hprimary : cfg.myId = cfg.primaryOfView v) :
    ∃ info', info.addSelfPrePrepare cfg m = .ok info' ∧ Takes cfg v s m info info' := by
  obtain ⟨hprim, hforced, -⟩ := h.noPP hnone
  obtain ⟨info', hset, htakes⟩ := setPrePrepare_spec h hnone hview hseq hs true
  refine ⟨info', ?_, htakes⟩
  unfold addSelfPrePrepare
  have hprimary' : cfg.myId = cfg.primaryOfView m.viewNumber := by rw [hview]; exact hprimary
  simp only [Assert, require_of hprim, require_of hprimary', require_of hforced, require_of hnone,
    ok_bind, hset]

/-! ## Shares of the slow path -/

/-- The own share is added to a slot that has a PrePrepare and is not prepared. -/
theorem addSelfPreparePartial_spec (h : Inv cfg v s info) (hpp : info.prePrepareMsg = some pp)
    (hself : info.prepareSigCollector.hasPartialMsgFromReplica cfg.myId = false)
    (hnot : info.isPrepared = false) {m : SignedSharePartial} (hm : cfg.myId = m.senderId) :
    ∃ info', info.addSelfPreparePartial cfg m = .ok info' ∧ Inv cfg v s info' ∧ Keeps info info' ∧
      info'.partialProofsSet = info.partialProofsSet ∧
      info'.forcedCompleted = info.forcedCompleted ∧
      info'.commitMsgsCollector = info.commitMsgsCollector := by
  obtain ⟨hforced, hvalid⟩ : info.forcedCompleted = false ∧
      info.prepareSigCollector.combinedValidSignatureMsg = none := by
    simpa [isPrepared, isComplete, hpp] using hnot
  obtain ⟨c, added, hc, hinv, hsame, hadded, -⟩ := addMsgWithPartialSignature_spec
    cfg.requiredForSlowPath h.prepareInv m m.senderId
  have hyes : added = true := hadded.2 ⟨hvalid, hm ▸ hself⟩
  have hquiet := h.collectsPrepare hinv hsame fun hno => absurd (hpp.symm.trans hno) (by simp)
  refine ⟨{ info with prepareSigCollector := c }, ?_, hquiet.inv, hquiet.keeps, rfl, rfl, rfl⟩
  unfold addSelfPreparePartial
  simp only [Assert, require_of hm, require_of hforced, ok_bind, hc, require_of hyes]
  rfl

theorem hasPartial_append {c c' : CollectorOfThresholdSignatures} {i repId : ReplicaId}
    {m : SignedSharePartial} {added : Bool} (hne : i ≠ repId)
    (hinfos : c'.replicasInfo =
      if added then c.replicasInfo ++ [(repId, ⟨m, .Unknown⟩)] else c.replicasInfo)
    (h : c.hasPartialMsgFromReplica i = false) : c'.hasPartialMsgFromReplica i = false := by
  unfold hasPartialMsgFromReplica at h ⊢
  rw [hinfos]
  cases added with
  | false => exact h
  | true =>
    have hlookup : c.replicasInfo.lookup i = none := by simpa using h
    have hni : (i == repId) = false := by simpa using hne
    simp [List.lookup_append, hlookup, List.lookup_cons, hni]

section

variable (h : Inv cfg v s info)
include h

theorem addPreparePartial_asserts (m : SignedSharePartial) :
    Asserts (fun p => Quiet cfg v s info p.1) (info.addPreparePartial cfg m) := by
  unfold addPreparePartial
  refine asserts_bind fun hne => asserts_bind fun _ => ?_
  obtain ⟨c, added, hc, hinv, hsame, -, hinfos⟩ := addMsgWithPartialSignature_spec
    cfg.requiredForSlowPath h.prepareInv m m.senderId
  rw [hc]
  exact .ok (h.collectsPrepare hinv hsame fun hnone =>
    hasPartial_append hne hinfos (h.noPP hnone).2.2.2.1)

theorem addCommitPartial_asserts (m : SignedSharePartial) :
    Asserts (fun p => Quiet cfg v s info p.1) (info.addCommitPartial cfg m) := by
  unfold addCommitPartial
  refine asserts_bind fun hne => asserts_bind fun _ => ?_
  obtain ⟨c, added, hc, hinv, hsame, -, hinfos⟩ := addMsgWithPartialSignature_spec
    cfg.requiredForSlowPath h.commitInv m m.senderId
  rw [hc]
  exact .ok (h.collectsCommit hinv hsame fun h0 => hasPartial_append hne hinfos (h.noCommit h0))

theorem addPrepareFull_asserts {m : SignedShareFull} (hm : m.IsFor v s) :
    Asserts (fun p => Quiet cfg v s info p.1) (info.addPrepareFull cfg m) := by
  unfold addPrepareFull
  refine asserts_bind fun _ => asserts_bind fun _ => ?_
  obtain ⟨c, added, hc, hinv, hsame, hinfos⟩ := addMsgWithCombinedSignature_spec
    cfg.requiredForSlowPath h.prepareInv hm
  rw [hc]
  refine .ok (h.collectsPrepare hinv hsame fun hnone => ?_)
  unfold hasPartialMsgFromReplica
  rw [hinfos]
  exact (h.noPP hnone).2.2.2.1

theorem addCommitFull_asserts {m : SignedShareFull} (hm : m.IsFor v s) :
    Asserts (fun p => Quiet cfg v s info p.1) (info.addCommitFull cfg m) := by
  unfold addCommitFull
  refine asserts_bind fun _ => asserts_bind fun _ => ?_
  obtain ⟨c, added, hc, hinv, hsame, hinfos⟩ := addMsgWithCombinedSignature_spec
    cfg.requiredForSlowPath h.commitInv hm
  rw [hc]
  refine .ok (h.collectsCommit hinv hsame fun h0 => ?_)
  unfold hasPartialMsgFromReplica
  rw [hinfos]
  exact h.noCommit h0

/-- The own commit share is made when the slot is prepared by a valid signature. -/
theorem addSelfCommitPartial_asserts (hpp : info.prePrepareMsg = some pp)
    (hprep : info.prepareSigCollector.combinedValidSignatureMsg.isSome = true)
    {m : SignedSharePartial} (hmv : m.viewNumber = v) (hms : m.seqNumber = s) :
    Asserts (fun info' => Quiet cfg v s info info')
      (info.addSelfCommitPartialMsgAndDigest cfg m (cfg.digestOfDigest pp.digestOfRequests)) := by
  unfold addSelfCommitPartialMsgAndDigest
  refine asserts_bind fun _ => asserts_bind fun hforced => ?_
  refine (setExpected_asserts cfg.requiredForSlowPath h.commitInv m.seqNumber m.viewNumber _).bind
    fun c₁ hc₁ => ?_
  obtain ⟨hne, hfresh, hinv₁, hcs, hcv, hcd, hvalid₁⟩ := hc₁
  obtain ⟨c₂, b, hc₂, hinv₂, hsame, -, -⟩ := addMsgWithPartialSignature_spec
    cfg.requiredForSlowPath hinv₁ m m.senderId
  rw [hc₂]
  refine asserts_bind fun _ => .ok ?_
  have hseq : c₂.expectedSeqNumber = s := hsame.seqNumber_eq.trans (hcs.trans hms)
  refine ⟨?_, { Keeps.refl info with }, ?_⟩
  · exact { h with
      commitInv := hinv₂
      noPP := fun hno => absurd (hpp.symm.trans hno) (by simp)
      commit := fun _ => ⟨pp, hpp, hseq, hsame.view_eq.trans (hcv.trans hmv), by
        show c₂.expectedDigest = _
        rw [hsame.digest_eq, hcd, hmv, hms]
        rfl, hprep⟩
      noCommit := fun h0 => absurd (hseq.symm.trans h0) (hms ▸ hne) }
  · rw [h.not_committed hfresh hforced]
    simp [isCommitted, isComplete, hforced, hsame.valid_eq, hvalid₁]

/-! ## The fast path -/

theorem addSelfProof_spec (hpp : info.prePrepareMsg = some pp)
    (hnone : info.partialProofsSet.selfPartialCommitProof = none) :
    ∃ p, info.partialProofsSet.addSelfMsgAndPPDigest cfg
          ⟨cfg.myId, v, pp.seqNumber, pp.firstPath⟩
          (ReplicaConfig.prepareDigest v pp.seqNumber pp.digestOfRequests) = .ok p ∧
      Inv cfg v s { info with partialProofsSet := p } ∧
      Keeps info { info with partialProofsSet := p } ∧ p.fullCommitProof = none := by
  obtain ⟨hpv, hps, -⟩ := h.pp pp hpp
  have hfull := (h.proofsInv.open_of_noSelf hnone).2.2.1
  obtain ⟨j, hp, -, hinv⟩ := addSelfMsgAndPPDigest_spec
    h.proofsInv hnone (m := ⟨cfg.myId, v, pp.seqNumber, pp.firstPath⟩) rfl
    (ReplicaConfig.prepareDigest v pp.seqNumber pp.digestOfRequests)
  refine ⟨_, hp, ?_, ⟨rfl, fun _ hx => hx, fun m hm => ?_, fun m hm => ?_⟩, hfull⟩
  · exact { h with
      proofsInv := hinv
      noPP := fun hn => absurd (hpp.symm.trans hn) (by simp)
      proofs := fun q hq => by
        obtain rfl := Option.some.inj hq
        exact ⟨pp, hpp, rfl, hps, rfl, hps, by simp only [withSelf, hps]⟩
      forced := fun hf => absurd (h.forced hf) (by simp [hfull]) }
  · exact absurd (hfull.symm.trans hm) (by simp)
  · exact absurd (hnone.symm.trans hm) (by simp)

theorem addPartialProof_asserts {m : PartialCommitProofMsg} (hseq : m.seqNumber = s)
    (hid : m.senderId ≠ cfg.myId) (hrep : cfg.isIdOfReplica m.senderId = true) :
    Asserts (fun p => Quiet cfg v s info { info with partialProofsSet := p.1 } ∧
        (p.2 = true → p.1.fullCommitProof = none))
      (info.partialProofsSet.addPartial cfg m) := by
  have hslot : info.partialProofsSet.seqNumber = 0 ∨
      info.partialProofsSet.seqNumber = m.seqNumber := by
    cases hself : info.partialProofsSet.selfPartialCommitProof with
    | none => exact Or.inl (h.proofsInv.open_of_noSelf hself).1
    | some q =>
      obtain ⟨-, -, -, -, -, hs, -⟩ := h.proofs q hself
      exact Or.inr (hs.trans hseq.symm)
  obtain ⟨p, hp, htakes⟩ := addPartial_spec hid hrep hslot
  obtain ⟨hinv, hself, hdigest, hs, hfull, hadded⟩ := htakes.keeps h.proofsInv
  rw [hp]
  refine .ok ⟨⟨h.withProofs hinv hself hdigest hs ?_, ⟨rfl, fun _ hx => hx, ?_, ?_⟩, rfl⟩,
    fun hb => hfull.trans (hadded hb)⟩
  · intro hsome
    rw [hfull]
    exact hsome
  · intro x hx
    exact hfull.trans hx
  · intro x hx
    exact hself.trans hx

/-- A full proof that is added verifies for the PrePrepare of the slot, with the key of its path. -/
theorem addFullProof_spec {m : FullCommitProofMsg}
    (hadded : (info.partialProofsSet.addFull cfg m).2 = true) :
    Quiet cfg v s info { info with partialProofsSet := (info.partialProofsSet.addFull cfg m).1 } ∧
      (info.partialProofsSet.addFull cfg m).1.fullCommitProof = some m := by
  rcases addFull_spec h.proofsInv m with ⟨hno, -⟩ | ⟨-, heq, hnone, hinv, -⟩
  · exact absurd (hno.symm.trans hadded) (by simp)
  · simp only [heq]
    exact ⟨⟨h.withProofs hinv rfl rfl rfl fun _ => rfl,
      ⟨rfl, fun _ hx => hx, fun x hx => absurd (hnone.symm.trans hx) (by simp), fun _ hx => hx⟩,
      rfl⟩, trivial⟩

theorem clearProofJob_quiet : Quiet cfg v s info
    { info with partialProofsSet := { info.partialProofsSet with job := none } } := by
  refine ⟨h.withProofs ⟨fun hno => ?_, h.proofsInv.full_verified, nofun⟩
    rfl rfl rfl fun hs => hs, { Keeps.refl info with }, rfl⟩
  obtain ⟨h1, h2, h3, -⟩ := h.proofsInv.open_of_noSelf hno
  exact ⟨h1, h2, h3, rfl⟩

theorem forceComplete_asserts :
    Asserts (fun info' => Inv cfg v s info' ∧ Keeps info info') info.forceComplete := by
  unfold forceComplete
  refine asserts_bind fun _ => asserts_bind fun hpp => asserts_bind fun hfull => .ok ?_
  obtain ⟨m, hm⟩ := Option.isSome_iff_exists.1 hpp
  refine ⟨{ h with noPP := fun hno => ?_, forced := fun _ => hfull }, { Keeps.refl info with }⟩
  exact absurd (hm.symm.trans hno) (by simp)

end

/-! ## Results of jobs -/

variable (cfg v s c) in
/-- What the result of a job does to a collector. -/
structure JobCompleted (c' : CollectorOfThresholdSignatures) (b : Bool) : Prop where
  inv : c'.Inv (cfg.verify .SlowPathCommit) (SignedShareFull.IsFor v s)
  seqNumber_eq : c'.expectedSeqNumber = c.expectedSeqNumber
  view_eq : c'.expectedView = c.expectedView
  digest_eq : c'.expectedDigest = c.expectedDigest
  before : c.combinedValidSignatureMsg = none
  after : c'.combinedValidSignatureMsg.isSome = b
  keys_eq : c'.replicasInfo.map (·.1) = c.replicasInfo.map (·.1)
  expected : c.expectedSeqNumber ≠ 0

theorem checkCompletion_asserts (c : CollectorOfThresholdSignatures) (s : SeqNum) (v : ViewNum) :
    Asserts (fun _ => c.expectedSeqNumber = s ∧ c.expectedView = v) (c.checkCompletion s v) := by
  unfold checkCompletion
  refine asserts_bind fun h1 => asserts_bind fun h2 => asserts_bind fun _ => ?_
  exact asserts_assert fun _ => ⟨h1, h2⟩

theorem completeJob_asserts (h : c.Inv (cfg.verify .SlowPathCommit) (SignedShareFull.IsFor v s))
    (result : JobResult) :
    Asserts (fun o => ∀ p, o = some p → JobCompleted cfg v s c p.1 p.2)
      (completeJob cfg c s v result) := by
  -- each completion function starts with the same assertions
  by_cases hsv : c.expectedSeqNumber = s ∧ c.expectedView = v
  · obtain ⟨rfl, rfl⟩ := hsv
    unfold completeJob
    split
    next ids bad hjob =>
      obtain ⟨hne, hvalid, -⟩ := h.job_waiting _ hjob
      obtain ⟨c', hc', hinv, hsame, hinfos⟩ :=
        onCombiningFailed_spec cfg.requiredForSlowPath h hjob bad
      rw [hc']
      refine .ok ?_
      rintro p hp
      obtain rfl := Option.some.inj hp
      exact ⟨hinv, hsame.seqNumber_eq, hsame.view_eq, hsame.digest_eq, hvalid,
        by rw [hsame.valid_eq, hvalid]; rfl, by rw [hinfos, markInvalid_keys], hne⟩
    next digest ids sig hjob =>
      refine asserts_ite (fun hver => ?_) fun _ => .ok nofun
      obtain ⟨hne, hvalid, rfl⟩ := h.job_waiting _ hjob
      have hgood : SignedShareFull.IsFor c.expectedView c.expectedSeqNumber
          ⟨cfg.myId, c.expectedView, c.expectedSeqNumber, sig⟩ := ⟨rfl, rfl⟩
      obtain ⟨c', hc', hinv, h1, h2, h3, h4, h5⟩ := onCombiningSucceeded_spec h hjob cfg.myId hver
        hgood
      rw [hc']
      refine .ok ?_
      rintro p hp
      obtain rfl := Option.some.inj hp
      exact ⟨hinv, h1, h2, h3, hvalid, by rw [h4]; rfl, by rw [h5], hne⟩
    next digest sig hjob =>
      obtain ⟨hne, hvalid, hd, m, hm, hsig⟩ := h.job_waiting _ hjob
      obtain ⟨c', hc', hinv, h1, h2, h3, h4, h5⟩ :=
        onCompletionOfCombinedSigVerification_spec cfg.requiredForSlowPath h hjob
      dsimp only
      rw [hc']
      refine .ok ?_
      rintro p hp
      obtain rfl := Option.some.inj hp
      refine ⟨hinv, h1, h2, h3, hvalid, ?_, by rw [h5], hne⟩
      rw [h4]
      cases hver : cfg.verify .SlowPathCommit digest sig <;> simp [hm]
    next => exact .ok nofun
  · have hfails : ∀ f : Unit → Except Failure CollectorOfThresholdSignatures,
        Asserts (fun _ => False) (c.checkCompletion s v >>= f) := fun f =>
      (checkCompletion_asserts c s v).bind fun _ hc => absurd hc hsv
    unfold completeJob
    split
    next => exact (hfails _).bind fun _ hno => hno.elim
    next =>
      refine asserts_ite (fun _ => ?_) fun _ => .ok nofun
      exact (hfails _).bind fun _ hno => hno.elim
    next => exact (hfails _).bind fun _ hno => hno.elim
    next => exact .ok nofun

theorem hasPartial_of_keys {c c' : CollectorOfThresholdSignatures} (i : ReplicaId)
    (hkeys : c'.replicasInfo.map (·.1) = c.replicasInfo.map (·.1)) :
    c'.hasPartialMsgFromReplica i = c.hasPartialMsgFromReplica i := by
  rw [Bool.eq_iff_iff]
  unfold hasPartialMsgFromReplica
  rw [lookup_isSome_iff, lookup_isSome_iff, hkeys]

theorem JobCompleted.prepare {b : Bool} (hjob : JobCompleted cfg v s info.prepareSigCollector c b)
    (h : Inv cfg v s info) :
    Quiet cfg v s info { info with prepareSigCollector := c } ∧
      info.prePrepareMsg.isSome = true := by
  refine ⟨⟨h.withPrepare hjob.inv hjob.seqNumber_eq hjob.view_eq hjob.digest_eq ?_ ?_,
    ⟨rfl, ?_, fun _ hx => hx, fun _ hx => hx⟩, rfl⟩, ?_⟩
  · intro hsome
    exact absurd hsome (by simp [hjob.before])
  · intro hnone
    rw [hasPartial_of_keys _ hjob.keys_eq]
    exact (h.noPP hnone).2.2.2.1
  · intro x hx
    exact absurd (hjob.before.symm.trans hx) (by simp)
  · cases hpp : info.prePrepareMsg with
    | none => exact absurd (h.noPP hpp).2.2.1 hjob.expected
    | some m => rfl

theorem JobCompleted.commit {b : Bool} (hjob : JobCompleted cfg v s info.commitMsgsCollector c b)
    (h : Inv cfg v s info) :
    Inv cfg v s { info with commitMsgsCollector := c } ∧
      Keeps info { info with commitMsgsCollector := c } := by
  refine ⟨h.withCommit hjob.inv hjob.seqNumber_eq hjob.view_eq hjob.digest_eq ?_,
    { Keeps.refl info with }⟩
  intro h0
  exact absurd (hjob.seqNumber_eq.symm.trans h0) hjob.expected

end SeqNumInfo

end ConcordBft
