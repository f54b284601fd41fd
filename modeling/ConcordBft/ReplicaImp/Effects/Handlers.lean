import ConcordBft.ReplicaImp.Effects.ViewChange

set_option autoImplicit false

/-! # The effects of the handlers

Every handler of a message, of the result of a job and of a timer has only effects, in any scope that
allows what the event brings. -/

namespace ConcordBft.ReplicaImp

open Checked SequenceWithActiveWindow Does Effects SeqNumInfo

variable {App : Type} {cfg : ReplicaConfig} {handler : RequestsHandler App} {env : Env}
  {M : Scope App} {r r₁ : ReplicaImp App} {s n : SeqNum} {numbers : List SeqNum}
  {msg : PrePrepareMsg} {info : SeqNumInfo}

/-! ## Rules -/

/-- A handler that first asks whether its message is relevant. -/
theorem relevant_does (hfull : M.full) (hw : WellFormed cfg r) {v : ViewNum}
    {f : ReplicaImp App × Bool → Except Failure (ReplicaImp App)}
    (hno : ∀ r₁, Does cfg handler env M r₁ (f (r₁, false)))
    (hyes : r.currentViewIsActive = true → v = r.curView → r.strictLowerBoundOfSeqNums < s →
      r.mainLog.Holds s → Does cfg handler env M r (f (r, true))) :
    Does cfg handler env M r (r.relevantMsgForActiveView cfg env v s >>= f) := by
  refine (relevantMsgForActiveView_meets hfull hw v s).bind fun p hp => ?_
  obtain ⟨r₁, relevant⟩ := p
  cases relevant with
  | false => exact after hp.1 (hno r₁)
  | true =>
    obtain ⟨hr₁, hactive, hview, hstrict, hs⟩ := hp.2 rfl
    subst hr₁
    exact hyes hactive hview hstrict hs

/-- A slot changes without a PrePrepare or a commit. -/
theorem quiet_effects (hactive : r.currentViewIsActive = true) (hs : r.mainLog.Holds s)
    (h : SeqNumInfo.Quiet cfg r.curView s (r.mainLog.lookup s) info) :
    Effects cfg handler M r (r.setSlot s info) :=
  (Effect.slot s info hactive hs h.inv h.keeps (Or.inr h.committed_eq)).effects

/-- Messages other than shares of the fast path and view change messages may always be sent. -/
theorem sendIfSome_effects {m : Option Msg} (h : ∀ m', m = some m' → Sendable cfg M r m')
    (dest : NodeIdType) : Effects cfg handler M r (r.sendIfSome m dest) := by
  cases m with
  | none => exact refl r
  | some m' => exact effects_send (h m' rfl) dest

/-! ## Requests -/

theorem addPendingRequest_asserts (cm : ClientsManager) (clientId : NodeIdType) (reqSeqNum : ReqId) :
    Asserts (fun cm' => cm'.reservedPages = cm.reservedPages ∧
        ∀ i, cm'.seqNumberOfLastReplyToClient i = cm.seqNumberOfLastReplyToClient i)
      (cm.addPendingRequest clientId reqSeqNum) := by
  refine asserts_bind fun _ => asserts_bind fun _ => .ok ⟨rfl, fun i => ?_⟩
  by_cases hi : i = clientId
  · subst hi
    simp [ClientsManager.seqNumberOfLastReplyToClient, ClientsManager.updateClient]
  · simp [ClientsManager.seqNumberOfLastReplyToClient, ClientsManager.updateClient, hi]

theorem onClientRequestMsg_does (hfull : M.full) (hw : WellFormed cfg r) (senderId : NodeIdType)
    {m : ClientRequestMsg} (hm : M.requests m) :
    Does cfg handler env M r (r.onClientRequestMsg cfg handler env senderId m) := by
  unfold onClientRequestMsg
  refine does_skip fun _ => does_ite (fun _ => ?_) fun _ => ?_
  · exact executeReadOnlyRequest_does hfull m
  refine does_skip fun hactive => ?_
  have hactive' : r.currentViewIsActive = true := by simpa using hactive
  refine does_ite (fun _ => does_ite (fun _ => ?_) fun _ => does_refl r) fun _ => ?_
  · refine does_ite (fun hprimary => does_ite (fun _ => ?_) fun _ => does_refl r) fun _ => ?_
    · have hqueue : Effects cfg handler M r { r with
          requestsQueueOfPrimary := r.requestsQueueOfPrimary ++ [m] } := by
        refine .bookkeeping rfl (fun m' hm' => ?_) (Or.inr rfl)
        rcases List.mem_append.1 hm' with hold | hnew
        · exact Or.inl hold
        · exact Or.inr (List.mem_singleton.1 hnew ▸ hm)
      exact after hqueue
        (tryToSendPrePrepareMsg_does (hqueue.wellFormed hw) hactive' hprimary true)
    · refine (meets_of_asserts hfull (addPendingRequest_asserts _ _ _)).bind fun cm hcm => .ok ?_
      have hclients : Effect cfg handler M r { r with
          execution := { r.execution with clientsManager := cm } } := .clients cm hcm.1 hcm.2
      exact hclients.effects.tail (.record _ trivial)
  · refine does_ite (fun _ => ?_) fun _ => does_refl r
    refine (meets_of_asserts hfull (allocateLatestReply_asserts _ _ _)).bind fun reply _ => .ok ?_
    refine effects_send ?_ m.clientProxyId
    exact trivial

/-! ## PrePrepares -/

theorem fits_of_accepted (h : msg.ToActualMsgType cfg = true) :
    msg.DigestFits cfg ∧ msg.senderId ≠ cfg.myId ∧ msg.seqNumber ≠ 0 ∧
      (cfg.cVal ≠ 0 ∨ msg.firstPath ≠ .FAST_WITH_THRESHOLD) := by
  simp only [PrePrepareMsg.ToActualMsgType, Bool.and_eq_true, bne_iff_ne, beq_iff_eq,
    Bool.not_eq_true', Bool.and_eq_false_iff, beq_eq_false_iff_ne] at h
  obtain ⟨⟨⟨⟨⟨⟨-, hid⟩, hseq⟩, hnull⟩, hpath⟩, -⟩, hdigest⟩ := h
  refine ⟨?_, hid, hseq, hpath.symm⟩
  rw [PrePrepareMsg.DigestFits, if_neg (by simp [hnull])]
  exact hdigest.symm

/-- **A PrePrepare of the primary is accepted**, and the replica votes for it. -/
theorem acceptPrePrepare_does (hw : WellFormed cfg r) (hactive : r.currentViewIsActive = true)
    (hmsg : msg.ToActualMsgType cfg = true) (hview : msg.viewNumber = r.curView)
    (hstrict : r.strictLowerBoundOfSeqNums < msg.seqNumber) (hs : r.mainLog.Holds msg.seqNumber)
    (hsender : msg.senderId = r.currentPrimary cfg) :
    Does cfg handler env M r (r.acceptPrePrepare cfg msg) := by
  obtain ⟨hfits, hid, hne, hpath⟩ := fits_of_accepted hmsg
  have hinv := hw.slots _ hs
  have hbackup : r.isCurrentPrimary cfg = true → msg.seqNumber ≤ r.primaryLastUsedSeqNum := by
    intro hprimary
    exact absurd (hsender.trans (eq_of_beq hprimary)) hid
  unfold acceptPrePrepare
  refine meets_get hs ?_
  rcases addPrePrepare_spec hinv hview rfl hne with ⟨m', -, hadd⟩ | ⟨hnone, hadd⟩
  · refine meets_ok_bind hadd ?_
    exact does_refl r
  obtain ⟨info, hinfo, hinv', hpp, hforced, hproofs, hcommit⟩ := hadd
  refine meets_ok_bind hinfo ?_
  dsimp only
  rw [if_neg (by simp)]
  have heff : Effects cfg handler M r ((r.setSlot msg.seqNumber info).record
      (.accept r.curView msg.seqNumber msg.digestOfRequests)) :=
    accept_effects hw hactive hs hstrict hbackup hnone hinv' hpp hfits hforced hcommit
  have hlook : ((r.setSlot msg.seqNumber info).record (.accept r.curView msg.seqNumber
      msg.digestOfRequests)).mainLog.lookup msg.seqNumber = info := lookup_set_self _ _ _
  have hw₁ := heff.wellFormed hw
  refine after heff (does_ite (fun _ => ?_) fun _ => ?_)
  · refine sendPartialProof_does hw₁ hactive hs ?_ ?_ hpath
    · rw [hlook, hpp]
    · rw [hlook, hproofs]
      exact (hinv.noPP hnone).2.2.2.2.2
  · have hslow : Does cfg handler env M ((r.setSlot msg.seqNumber info).record
        (.accept r.curView msg.seqNumber msg.digestOfRequests)) _ :=
      startSlowPath_does hw₁ hactive hs
    rw [hlook] at hslow
    exact hslow

theorem onPrePrepareMsg_does (hfull : M.full) (hw : WellFormed cfg r)
    (hmsg : msg.ToActualMsgType cfg = true)
    (henters : ∀ r₁, r.addMissingPrePrepare msg = .ok (r₁, true) → MayEnter cfg M r₁) :
    Does cfg handler env M r (r.onPrePrepareMsg cfg env msg) := by
  unfold onPrePrepareMsg
  refine does_ite (fun _ => ?_) fun _ => ?_
  · exact onMissingPrePrepare_does hfull hw (fits_of_accepted hmsg).1 henters
  refine relevant_does hfull hw (fun r₁ => ?_) fun hactive hview hstrict hs => ?_
  · exact does_ite (fun h => absurd h.1 (by simp)) fun _ => does_refl r₁
  · refine does_ite (fun h => ?_) fun _ => does_refl r
    exact acceptPrePrepare_does hw hactive hmsg hview hstrict hs h.2

/-! ## The slow path -/

theorem startSlowPaths_does (hw : WellFormed cfg r) (hactive : r.currentViewIsActive = true)
    (hnumbers : ∀ i ∈ numbers, r.mainLog.Holds i) :
    Does cfg handler env M r (r.startSlowPaths cfg env numbers) := by
  induction numbers generalizing r with
  | nil => exact does_refl r
  | cons i rest ih =>
    have hi := hnumbers i List.mem_cons_self
    have hrest : ∀ j ∈ rest, r.mainLog.Holds j := fun j hj =>
      hnumbers j (List.mem_cons_of_mem i hj)
    unfold startSlowPaths
    refine meets_get hi (does_ite (fun _ => ih hw hactive hrest) fun _ => ?_)
    refine does_skip fun _ => ?_
    have hstart : Effects cfg handler M r ((r.setSlot i (r.mainLog.lookup i).startSlowPath).record
        (.sendToAllOtherReplicas (.startSlowCommit ⟨cfg.myId, r.curView, i⟩))) :=
      (startSlowPath_effects hw hactive hi).tail (.record _ trivial)
    obtain ⟨r₁, heq, hprep⟩ : ∃ r₁, ((r.setSlot i (r.mainLog.lookup i).startSlowPath).record
        (.sendToAllOtherReplicas (.startSlowCommit ⟨cfg.myId, r.curView, i⟩))).sendPreparePartial
          cfg i = .ok r₁ ∧ Prepared cfg ((r.setSlot i (r.mainLog.lookup i).startSlowPath).record
        (.sendToAllOtherReplicas (.startSlowCommit ⟨cfg.myId, r.curView, i⟩))) i r₁ :=
      sendPreparePartial_spec hactive ((hstart.wellFormed hw).slots i hi)
    have heff := hstart.trans (hprep.effects hactive hi)
    refine meets_ok_bind heq (after heff (ih (heff.wellFormed hw) ?_ fun j hj => ?_))
    · cases hprep with
      | nothing | share => exact hactive
    · cases hprep with
      | nothing | share => exact hrest j hj

theorem tryToStartSlowPaths_does (hfull : M.full) (hM : M.moves) (hw : WellFormed cfg r) :
    Does cfg handler env M r (r.tryToStartSlowPaths cfg env) := by
  unfold tryToStartSlowPaths
  refine does_skip fun h => ?_
  refine does_skip fun hmin => ?_
  simp only [not_or, Bool.not_eq_false] at h
  obtain ⟨hprimary, -, hactive⟩ := h
  refine meets_assert hfull fun hmax => meets_require_bind (fun hbehind => ?_) fun _ => ?_
  · refine ⟨r, refl r, hactive, hprimary, ?_⟩
    lia
  refine does_skip fun _ => ?_
  -- the stable point may move up to the last executed number
  have hsend : Does cfg handler env Scope.checkpointing r (r.sendCheckpointIfNeeded cfg env) :=
    sendCheckpointIfNeeded_does trivial hw
  have hle : Scope.Le Scope.checkpointing M := Scope.checkpointing_le hM
  refine (Meets.weaken hsend fun _ => Fails.mono hle).bind fun r₁ he => ?_
  have hw₁ := he.wellFormed hw
  refine after (he.mono hle)
    (startSlowPaths_does hw₁ ((he.sameView id).active.trans hactive) fun i hi => ?_)
  obtain ⟨hlo, hhi⟩ := ViewsManager.mem_seqNums.1 hi
  have hexec : r₁.lastExecutedSeqNum = r.lastExecutedSeqNum := he.executed_eq id id
  have hstable := hw₁.stable_le
  have hmore := he.progress.stable_le
  exact hw₁.holds (by lia) (by lia)

theorem onStartSlowCommitMsg_does (hfull : M.full) (hw : WellFormed cfg r)
    (msg : StartSlowCommitMsg) : Does cfg handler env M r (r.onStartSlowCommitMsg cfg env msg) := by
  unfold onStartSlowCommitMsg
  refine relevant_does hfull hw does_refl fun hactive _ _ hs => ?_
  refine meets_get hs (does_skip fun _ => ?_)
  have heff : Effects cfg handler M r _ := startSlowPath_effects hw hactive hs
  refine does_ite (fun _ => ?_) fun _ => startSlowPath_does hw hactive hs
  exact after heff (tryToSendReqMissingDataMsg_does (heff.wellFormed hw) _ false none)

theorem evidence_effects {m : Msg} (h : evidence info = some m) (dest : NodeIdType) :
    Effects cfg handler M r (r.send m dest) := by
  refine effects_send ?_ dest
  simp only [evidence, Option.or_eq_some_iff, Option.map_eq_some_iff] at h
  rcases h with ⟨_, _, rfl⟩ | ⟨-, ⟨_, _, rfl⟩ | ⟨-, _, _, rfl⟩⟩ <;> exact trivial

theorem commitEvidence_effects {m : Msg} (h : commitEvidence info = some m) (dest : NodeIdType) :
    Effects cfg handler M r (r.send m dest) := by
  refine effects_send ?_ dest
  simp only [commitEvidence, Option.or_eq_some_iff, Option.map_eq_some_iff] at h
  rcases h with ⟨_, _, rfl⟩ | ⟨-, _, _, rfl⟩ <;> exact trivial

section

variable (hfull : M.full)
include hfull

theorem addToSlot_does (hactive : r.currentViewIsActive = true) (hs : r.mainLog.Holds s)
    {x : Except Failure (SeqNumInfo × Bool)}
    (hx : Asserts (fun p => SeqNumInfo.Quiet cfg r.curView s (r.mainLog.lookup s) p.1) x) :
    Does cfg handler env M r (do
      let (info, _) ← x
      pure (r.setSlot s info)) :=
  (meets_of_asserts hfull hx).bind fun _ hp => .ok (quiet_effects hactive hs hp)

section

variable (hw : WellFormed cfg r)
include hw

theorem onPreparePartialMsg_does (msg : SignedSharePartial) :
    Does cfg handler env M r (r.onPreparePartialMsg cfg env msg) := by
  unfold onPreparePartialMsg
  refine relevant_does hfull hw does_refl fun hactive _ _ hs => ?_
  refine meets_assert hfull fun _ => meets_get hs ?_
  split
  next m hm => exact does_pure (evidence_effects hm _)
  next =>
    exact addToSlot_does hfull hactive hs
      (addPreparePartial_asserts (hw.slots _ hs) msg)

theorem onCommitPartialMsg_does (msg : SignedSharePartial) :
    Does cfg handler env M r (r.onCommitPartialMsg cfg env msg) := by
  unfold onCommitPartialMsg
  refine relevant_does hfull hw does_refl fun hactive _ _ hs => ?_
  refine meets_assert hfull fun _ => meets_get hs ?_
  split
  next m hm => exact does_pure (commitEvidence_effects hm _)
  next =>
    exact addToSlot_does hfull hactive hs
      (addCommitPartial_asserts (hw.slots _ hs) msg)

theorem onPrepareFullMsg_does (msg : SignedShareFull) :
    Does cfg handler env M r (r.onPrepareFullMsg cfg env msg) := by
  unfold onPrepareFullMsg
  refine relevant_does hfull hw does_refl fun hactive hview _ hs => ?_
  refine meets_get hs ?_
  split
  next hm => exact does_pure (commitEvidence_effects hm _)
  next => exact does_refl r
  next =>
    exact addToSlot_does hfull hactive hs
      (addPrepareFull_asserts (hw.slots _ hs) ⟨hview, rfl⟩)

theorem onCommitFullMsg_does (msg : SignedShareFull) :
    Does cfg handler env M r (r.onCommitFullMsg cfg env msg) := by
  unfold onCommitFullMsg
  refine relevant_does hfull hw does_refl fun hactive hview _ hs => ?_
  refine meets_get hs ?_
  split
  next => exact does_pure (effects_record trivial)
  next => exact does_refl r
  next =>
    exact addToSlot_does hfull hactive hs
      (addCommitFull_asserts (hw.slots _ hs) ⟨hview, rfl⟩)

/-! ## The fast path -/

theorem onPartialCommitProofMsg_does (msg : PartialCommitProofMsg) :
    Does cfg handler env M r (r.onPartialCommitProofMsg cfg env msg) := by
  unfold onPartialCommitProofMsg
  refine meets_assert hfull fun hpeer => meets_assert hfull fun _ => ?_
  refine relevant_does hfull hw (fun r₁ => ?_) fun hactive _ _ hs => ?_
  · exact does_ite (fun _ => does_refl r₁) fun h => absurd (Or.inl rfl) h
  refine does_skip fun _ => meets_get hs ?_
  simp only [ReplicaConfig.isIdOfPeerReplica, Bool.and_eq_true, bne_iff_ne] at hpeer
  refine (meets_of_asserts hfull (addPartialProof_asserts (hw.slots _ hs) rfl hpeer.2
    hpeer.1)).bind fun p hp => ?_
  obtain ⟨proofs, added⟩ := p
  obtain ⟨hquiet, hadded⟩ := hp
  refine meets_require_bind (fun hno => ?_) fun _ => .ok (quiet_effects hactive hs hquiet)
  refine absurd ?_ hno
  cases added with
  | false => exact Or.inl rfl
  | true => exact Or.inr (congrArg Option.isSome (hadded rfl))

theorem addFullCommitProof_meets (msg : FullCommitProofMsg) :
    Meets (Fails cfg handler env M r) (fun p => Effects cfg handler M r p.1 ∧ (p.2 = true →
        p.1.currentViewIsActive = true ∧ p.1.mainLog.Holds msg.seqNumber))
      (r.addFullCommitProof cfg env msg) := by
  unfold addFullCommitProof
  refine (relevantMsgForActiveView_meets hfull hw _ _).bind fun p hp => ?_
  obtain ⟨he, hrelevant⟩ := hp
  refine meets_ite (fun _ => .ok ⟨he, nofun⟩) fun hyes => ?_
  obtain ⟨rfl, hactive, -, -, hs⟩ := hrelevant (by simpa using hyes)
  refine meets_get hs ?_
  refine meets_ite (fun _ => .ok ⟨he, nofun⟩) fun hadded => ?_
  refine meets_assert hfull fun _ => .ok ⟨?_, fun _ => ⟨hactive, hs⟩⟩
  have hspec := addFullProof_spec (hw.slots _ hs) (m := msg)
    (Bool.not_eq_false _ ▸ hadded)
  exact quiet_effects hactive hs hspec.1

end

theorem onFullCommitProofMsg_does (hM : M.moves) (hM' : M.executes) (hw : WellFormed cfg r)
    (msg : FullCommitProofMsg) :
    Does cfg handler env M r (r.onFullCommitProofMsg cfg handler env msg) := by
  unfold onFullCommitProofMsg
  refine (addFullCommitProof_meets hfull hw msg).bind fun p hp => ?_
  obtain ⟨r₁, added⟩ := p
  obtain ⟨he, hadded⟩ := hp
  refine after he (does_ite (fun hyes => ?_) fun _ => does_refl r₁)
  obtain ⟨hactive, hs⟩ := hadded hyes
  exact commitFullCommitProof_does hM hM' hfull (he.wellFormed hw) hactive hs

end

/-! ## Results of jobs -/

theorem of_jobIsRelevant (hw : WellFormed cfg r) {v : ViewNum} (h : r.jobIsRelevant v s = true) :
    r.currentViewIsActive = true ∧ r.curView = v ∧ r.mainLog.Holds s := by
  obtain ⟨-, hactive, hview, hin⟩ := by simpa [jobIsRelevant, and_assoc] using h
  exact ⟨hactive, hview, hw.holds_of_inside hin⟩

theorem onFullProofCreated_does (hfull : M.full) (hM : M.moves) (hM' : M.executes)
    (hw : WellFormed cfg r) (s : SeqNum) (sig : Bytes) :
    Does cfg handler env M r (r.onFullProofCreated cfg handler env s sig) := by
  obtain ⟨m, hm, hlook, hset⟩ := mainLog_place r.mainLog s
  have hset' : ∀ info, r.setSlot s info = r.setSlot m info := fun info => by
    rw [ReplicaImp.setSlot, ReplicaImp.setSlot, hset info]
  unfold onFullProofCreated
  rw [hlook]
  dsimp only
  split
  next => exact does_refl r
  next job hjob =>
    refine does_ite (fun h => ?_) fun _ => does_refl r
    obtain ⟨hactive, -⟩ := of_jobIsRelevant hw h.2
    rw [hset']
    have hclear : Effects cfg handler M r _ :=
      quiet_effects hactive hm (clearProofJob_quiet (hw.slots m hm))
    have heff := hclear.tail (.record (.sendToAllOtherReplicas (.fullCommitProof
      ⟨cfg.myId, job.view, job.seqNumber, sig⟩)) trivial)
    exact after heff (onFullCommitProofMsg_does hfull hM hM' (heff.wellFormed hw) _)

theorem onPrepareJobResult_does (hfull : M.full) (hw : WellFormed cfg r) (s : SeqNum)
    (result : SeqNumInfo.JobResult) :
    Does cfg handler env M r (r.onPrepareJobResult cfg s result) := by
  unfold onPrepareJobResult
  dsimp only
  refine does_skip fun h => ?_
  obtain ⟨hactive, hview, hs⟩ := of_jobIsRelevant hw (by simpa using h)
  have hinv := hw.slots s hs
  refine meets_get hs ?_
  rw [← hview]
  refine (meets_of_asserts hfull (completeJob_asserts hinv.prepareInv result)).bind
    fun o ho => ?_
  split
  next => exact does_refl r
  next c => exact does_pure (quiet_effects hactive hs ((ho _ rfl).prepare hinv).1)
  next c =>
    have hjob := ho _ rfl
    have heff : Effects cfg handler M r (r.setSlot s { r.mainLog.lookup s with
        prepareSigCollector := c }) := quiet_effects hactive hs (hjob.prepare hinv).1
    refine after heff ?_
    split
    next => exact .error (fails_assertion hfull)
    next preFull _ =>
      refine does_skip fun _ => ?_
      refine meets_assert hfull fun _ => ?_
      have hvalid : ((r.mainLog.set s { r.mainLog.lookup s with
          prepareSigCollector := c }).lookup s).prepareSigCollector.combinedValidSignatureMsg.isSome
            = true := by
        rw [lookup_set_self]
        exact hjob.after
      split
      next => exact sendCommitPartial_does hfull (heff.wellFormed hw) hvalid
      next =>
        have hsent : Effects cfg handler M (r.setSlot s { r.mainLog.lookup s with
            prepareSigCollector := c }) _ :=
          effects_record (a := .sendToAllOtherReplicas (.prepareFull preFull)) trivial
        exact after hsent
          (sendCommitPartial_does hfull ((heff.trans hsent).wellFormed hw) hvalid)

theorem addCommitSig_meets (hfull : M.full) (hw : WellFormed cfg r) (s : SeqNum)
    (result : SeqNumInfo.JobResult) :
    Meets (Fails cfg handler env M r) (fun p => Effects cfg handler M r p.1)
      (r.addCommitSig cfg s result) := by
  unfold addCommitSig
  dsimp only
  refine meets_ite (fun _ => .ok (refl r)) fun h => ?_
  obtain ⟨hactive, hview, hs⟩ := of_jobIsRelevant hw (by simpa using h)
  have hinv := hw.slots s hs
  refine meets_get hs ?_
  rw [← hview]
  refine (meets_of_asserts hfull (completeJob_asserts hinv.commitInv result)).bind
    fun o ho => ?_
  have hslot : ∀ c b, o = some (c, b) → Effects cfg handler M r (r.setSlot s
      { r.mainLog.lookup s with commitMsgsCollector := c }) := by
    intro c b hc
    have hjob := (ho _ hc).commit hinv
    exact (Effect.slot s _ hactive hs hjob.1 hjob.2 (Or.inl hfull)).effects
  split
  next => exact .ok (refl r)
  next c => exact .ok (hslot c false rfl)
  next c =>
    have heff := hslot c true rfl
    split
    next => exact .error (fails_assertion hfull)
    next commitFull _ =>
      refine meets_ite (fun _ => meets_assert hfull fun _ => .ok heff) fun _ => ?_
      refine meets_ite (fun _ => .ok heff) fun _ => meets_assert hfull fun _ => .ok ?_
      exact heff.tail (.record _ trivial)

theorem onCommitJobResult_does (hfull : M.full) (hM : M.moves) (hM' : M.executes)
    (hw : WellFormed cfg r) (s : SeqNum) (result : SeqNumInfo.JobResult) :
    Does cfg handler env M r (r.onCommitJobResult cfg handler env s result) := by
  unfold onCommitJobResult
  refine (addCommitSig_meets hfull hw s result).bind fun p he => ?_
  refine after he (does_ite (fun _ => ?_) fun _ => does_refl _)
  exact executeReadWriteRequests_does hM hM' hfull (he.wellFormed hw) _

/-! ## Checkpoints -/

theorem table_effects (table : List (ReplicaId × CheckpointMsg)) :
    Effects cfg handler M r { r with tableOfStableCheckpoints := table } :=
  .bookkeeping rfl (fun _ hm => Or.inl hm) (Or.inr rfl)

theorem updateTableOfStableCheckpoints_meets (hw : WellFormed cfg r) (msg : CheckpointMsg) :
    Meets (Fails cfg handler env M r) (fun p => Effects cfg handler M r p.1)
      (r.updateTableOfStableCheckpoints cfg env msg) := by
  unfold updateTableOfStableCheckpoints
  refine meets_ite (fun _ => ?_) fun _ => .ok (refl r)
  refine meets_ite (fun _ => .ok (table_effects _)) fun _ => ?_
  refine meets_ite (fun _ => .ok (table_effects _)) fun _ => ?_
  refine meets_ite (fun _ => ?_) fun _ => .ok (table_effects _)
  split
  next hin => exact meets_get (hw.holds_of_inside hin) (.ok (table_effects _))
  next => exact .ok (table_effects _)

theorem considerStateTransfer_does (hfull : M.full) (hw : WellFormed cfg r) (msg : CheckpointMsg) :
    Does cfg handler env M r (r.considerStateTransfer cfg env msg) := by
  unfold considerStateTransfer
  refine (updateTableOfStableCheckpoints_meets hw msg).bind fun p he => after he ?_
  refine does_ite (fun _ => does_pure ?_) fun _ => does_ite (fun _ => ?_) fun _ =>
    does_refl _
  · exact .bookkeeping rfl (fun _ hm => Or.inl hm) (Or.inl hfull)
  · exact (tryToSendStatusReport_sends (he.wellFormed hw)).does

theorem onCheckpointMsg_does (hfull : M.full) (hM : M.moves) (hw : WellFormed cfg r)
    {msg : CheckpointMsg} (hmsg : msg.ToActualMsgType cfg = true) :
    Does cfg handler env M r (r.onCheckpointMsg cfg env msg) := by
  simp only [CheckpointMsg.ToActualMsgType, ReplicaConfig.isIdOfPeerReplica, Bool.and_eq_true,
    bne_iff_ne, beq_iff_eq] at hmsg
  obtain ⟨⟨⟨-, hid⟩, hmod⟩, -⟩ := hmsg
  unfold onCheckpointMsg
  refine does_ite (fun hwindow => ?_) fun _ => considerStateTransfer_does hfull hw msg
  have hholds : r.checkpointsLog.Holds msg.seqNumber :=
    hw.holds_checkpoint hmod (le_of_lt hwindow.1) hwindow.2
  refine meets_assert hfull fun _ => meets_get hholds ?_
  -- the message of another replica leaves the own one as it is
  have hself : ((r.checkpointsLog.lookup msg.seqNumber).addCheckpointMsg cfg.toReplicasInfo cfg.myId
      msg msg.genReplicaId).selfCheckpointMsg cfg.toReplicasInfo cfg.myId =
      (r.checkpointsLog.lookup msg.seqNumber).selfCheckpointMsg cfg.toReplicasInfo cfg.myId :=
    CheckpointInfo.self_addCheckpointMsg_of_ne hid
  have hset : Effect cfg handler M r (r.setCheckpoint msg.seqNumber
      ((r.checkpointsLog.lookup msg.seqNumber).addCheckpointMsg cfg.toReplicasInfo cfg.myId msg
        msg.genReplicaId)) := by
    refine .checkpoint _ _ hM hholds fun hexec => hw.checkpoints _ hholds ?_
    rw [hself] at hexec
    exact hexec
  refine after hset.effects (does_ite (fun _ => ?_) fun _ => ?_)
  · refine meets_assert hfull fun hown => ?_
    have hle : msg.seqNumber ≤ r.lastExecutedSeqNum := by
      rw [hself] at hown
      exact hw.checkpoints _ hholds (Or.inl hown)
    exact (onSeqNumIsStable_does hM (hset.wellFormed hw) hmod hle).mono fun _ hr => hr.1
  · exact considerStateTransfer_does hfull (hset.wellFormed hw) msg

/-! ## Answering requests for missing data -/

theorem answer_effects {r₁ : ReplicaImp App} {m : Option Msg} {missing : Bool} {dest : NodeIdType}
    (he : Effects cfg handler M r r₁) (h : ∀ m', m = some m' → Sendable cfg M r₁ m') :
    Effects cfg handler M r (if missing then r₁.sendIfSome m dest else r₁) := by
  split
  · exact he.trans (sendIfSome_effects h dest)
  · exact he

theorem onReqMissingDataMsg_does (hw : WellFormed cfg r) {msg : ReqMissingDataMsg}
    (hmsg : M.answers msg.seqNumber) :
    Does cfg handler env M r (r.onReqMissingDataMsg cfg msg) := by
  unfold onReqMissingDataMsg
  refine does_ite (fun h => ?_) fun _ => does_refl r
  have hs := hw.holds_of_inside h.2.2
  refine meets_get hs (does_pure ?_)
  have hself : ∀ p, (r.mainLog.lookup msg.seqNumber).partialProofs.getSelfPartialCommitProof =
      some p → M.answers p.seqNumber := by
    intro p hp
    obtain ⟨-, -, -, hseq, -⟩ := (hw.slots _ hs).proofs p hp
    rw [hseq]
    exact hmsg
  have hother : ∀ {α : Type} {o : Option α} {f : α → Msg} {r₁ : ReplicaImp App},
      (∀ a, Sendable cfg M r₁ (f a)) → ∀ m', o.map f = some m' → Sendable cfg M r₁ m' := by
    intro α o f r₁ hf m' hm'
    obtain ⟨a, -, rfl⟩ := Option.map_eq_some_iff.1 hm'
    exact hf a
  refine answer_effects (answer_effects (answer_effects (answer_effects (answer_effects
    (answer_effects ?_ ?_) ?_) ?_) ?_) ?_) ?_
  · split
    · refine answer_effects (answer_effects (refl r) (hother fun _ => trivial)) ?_
      intro m' hm'
      exact Option.some.inj hm' ▸ trivial
    · exact refl r
  · intro m' hm'
    obtain ⟨p, hp, rfl⟩ := Option.map_eq_some_iff.1 hm'
    exact Or.inr (hself p hp)
  all_goals exact hother fun _ => trivial

/-! ## Asking for missing information -/

theorem firstNotCommitted_meets {allowed : Failure → Prop}
    (hnumbers : ∀ i ∈ numbers, r.mainLog.Holds i) (last : SeqNum) :
    Meets allowed (fun _ => True) (firstNotCommitted numbers r last) := by
  induction numbers with
  | nil => exact .ok trivial
  | cons i rest ih =>
    unfold firstNotCommitted
    refine meets_get (hnumbers i List.mem_cons_self) (meets_ite (fun _ => ih fun j hj => ?_)
      fun _ => .ok trivial)
    exact hnumbers j (List.mem_cons_of_mem i hj)

theorem lastOldInfo_meets (hfull : M.full) (hw : WellFormed cfg r) (last : SeqNum) :
    Meets (Fails cfg handler env M r) (fun _ => True) (lastOldInfo env numbers r last) := by
  induction numbers generalizing last with
  | nil => exact .ok trivial
  | cons i rest ih =>
    unfold lastOldInfo
    refine meets_assert hfull fun hin => meets_get (hw.holds_of_inside hin) ?_
    exact ih _

theorem tryToAskForMissingInfo_does (hfull : M.full) (hw : WellFormed cfg r) :
    Does cfg handler env M r (r.tryToAskForMissingInfo cfg env) := by
  unfold tryToAskForMissingInfo
  refine does_skip fun _ => ?_
  refine meets_assert hfull fun _ => ?_
  have hmin : ∀ recent : Bool, Meets (Fails cfg handler env M r) (fun _ => True)
      (if recent then r.firstNotCommitted (seqNums (r.lastStableSeqNum + 1)
          (r.lastStableSeqNum + kWorkWindowSize)) (r.lastStableSeqNum + kWorkWindowSize)
        else pure (r.lastExecutedSeqNum + 1)) := by
    intro recent
    refine meets_ite (fun _ => firstNotCommitted_meets (fun i hi => ?_) _) fun _ => .ok trivial
    obtain ⟨hlo, hhi⟩ := ViewsManager.mem_seqNums.1 hi
    exact hw.holds hlo hhi
  refine (hmin _).bind fun minSeqNum _ =>
    does_skip fun _ => ?_
  refine (lastOldInfo_meets hfull hw 0).bind fun lastRelated _ => does_foldlM fun i _ r₁ he => ?_
  have hw₁ := he.wellFormed hw
  exact does_ite (fun _ => tryToSendReqMissingDataMsg_does hw₁ i true _) fun _ =>
    tryToSendReqMissingDataMsg_does hw₁ i false none

end ConcordBft.ReplicaImp
