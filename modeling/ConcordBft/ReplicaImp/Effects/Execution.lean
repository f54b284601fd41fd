import ConcordBft.MsgsCertificate.Proofs
import ConcordBft.ReplicaImp.Effects.Sending

set_option autoImplicit false

/-! # The effects of checkpoints and execution

The functions of `ReplicaImp.Execution`. All of them belong to the scope `executing`: no number is
committed, so the loop of `executeReadWriteRequests` ends with the window it started with. -/

namespace ConcordBft

open Checked MsgsCertificate

/-! ## The own message of a checkpoint -/

namespace CheckpointInfo

variable {info : ReplicasInfo} {myId i : ReplicaId} {c : CheckpointInfo} {m : CheckpointMsg}

theorem self_addCheckpointMsg (h : c.selfCheckpointMsg info myId = none) :
    ((c.addCheckpointMsg info myId m myId).selfCheckpointMsg info myId) = some m := by
  have hnone : c.checkpointCertificate.msgsFromReplicas.lookup myId = none := h
  have hno : c.checkpointCertificate.hasMsgFromReplica myId = false := by
    simp [hasMsgFromReplica, hnone]
  show (c.checkpointCertificate.addMsg _ m myId).2.msgsFromReplicas.lookup myId = some m
  rw [addMsg_msgs _ _ _ _ hno, List.lookup_append, hnone]
  simp

theorem self_addCheckpointMsg_of_ne (hi : i ≠ myId) :
    ((c.addCheckpointMsg info myId m i).selfCheckpointMsg info myId) =
      c.selfCheckpointMsg info myId := by
  show (c.checkpointCertificate.addMsg _ m i).2.msgsFromReplicas.lookup myId =
    c.checkpointCertificate.msgsFromReplicas.lookup myId
  cases hhas : c.checkpointCertificate.hasMsgFromReplica i with
  | true => rw [addMsg_of_hasMsg _ _ _ _ hhas]
  | false =>
    have hne : (myId == i) = false := by simpa using Ne.symm hi
    rw [addMsg_msgs _ _ _ _ hhas, List.lookup_append]
    simp [List.lookup_cons, hne]

theorem self_setStateAsStable (h : (c.selfCheckpointMsg info myId).isSome = true) :
    ((c.setStateAsStable myId).selfCheckpointMsg info myId).isSome = true := by
  have hsome : (c.checkpointCertificate.msgsFromReplicas.lookup myId).isSome = true := h
  show ((c.checkpointCertificate.msgsFromReplicas.map fun m =>
    if m.1 = myId then (m.1, { m.2 with isStableState := true }) else m).lookup myId).isSome = true
  generalize c.checkpointCertificate.msgsFromReplicas = msgs at hsome
  induction msgs with
  | nil => simp at hsome
  | cons e rest ih =>
    by_cases he : e.1 = myId
    · simp [he]
    · have hne : (myId == e.1) = false := by simpa using Ne.symm he
      rw [List.lookup_cons, hne] at hsome
      rw [List.map_cons, if_neg he, List.lookup_cons, hne]
      exact ih hsome

theorem complete_tryToMark (h : (c.selfCheckpointMsg info myId).isSome = true) :
    (c.tryToMarkCheckpointCertificateCompleted info myId).isCheckpointCertificateComplete = true := by
  have hhas : c.checkpointCertificate.hasMsgFromReplica myId = true := h
  simp [isCheckpointCertificateComplete, tryToMarkCheckpointCertificateCompleted,
    isComplete, tryToMarkComplete, checkpointParams, hhas]

end CheckpointInfo

namespace ReplicaImp

open SequenceWithActiveWindow

variable {App : Type} {cfg : ReplicaConfig} {handler : RequestsHandler App} {env : Env}
  {M : Scope App} {r r₁ : ReplicaImp App} {s n : SeqNum} {pp : PrePrepareMsg}

/-- The certificate of a stable checkpoint is complete. -/
theorem stableCheckpoint_complete (info : CheckpointInfo) :
    (stableCheckpoint cfg env info s).isCheckpointCertificateComplete = true := by
  unfold stableCheckpoint
  dsimp only
  split_ifs with h
  · exact h
  · refine CheckpointInfo.complete_tryToMark ?_
    cases hself : info.selfCheckpointMsg cfg.toReplicasInfo cfg.myId with
    | none => exact Option.isSome_of_eq_some (CheckpointInfo.self_addCheckpointMsg hself)
    | some m => exact CheckpointInfo.self_setStateAsStable (by rw [hself]; rfl)

theorem stableCheckpoint_executed (info : CheckpointInfo) :
    (stableCheckpoint cfg env info s).executed = info.executed := by
  unfold stableCheckpoint
  dsimp only
  split_ifs <;> split <;> rfl

/-! ## The stable point -/

theorem advanceStable_spec (hmain : r.mainLog.beginningOfActiveWindow = r.lastStableSeqNum + 1)
    (hcps : r.checkpointsLog.beginningOfActiveWindow = r.lastStableSeqNum)
    (hmod : r.lastStableSeqNum % checkpointWindowSize = 0) (hn : n % checkpointWindowSize = 0)
    (hle : r.lastStableSeqNum ≤ n) :
    ∃ log cps, r.advanceStable n = .ok (r.advanceTo n log cps) ∧ Advanced r n log cps := by
  have hlt : r.mainLog.beginningOfActiveWindow ≤ n + 1 := by
    lia
  obtain ⟨log, hlog, hbegin, hlook⟩ :=
    advanceActiveWindow_spec (Int.emod_one _) (Int.emod_one _) hlt
  obtain ⟨cps, hcps', hcbegin, hclook⟩ := advanceActiveWindow_spec (w := r.checkpointsLog)
    (by rw [hcps]; exact hmod) hn (by rw [hcps]; exact hle)
  refine ⟨log, cps, ?_, hbegin, hlook, hcbegin, hclook⟩
  unfold advanceStable
  rw [hlog, hcps']
  rfl

theorem catchUpWithStable_eq (h : n ≤ r.lastExecutedSeqNum) : r.catchUpWithStable cfg n = .ok r := by
  unfold catchUpWithStable
  rw [if_neg (not_lt.2 h)]
  rfl

/-- The steps after the windows have moved. -/
theorem onStablePointMoved_does (hM : M.moves) (hw : WellFormed cfg r) :
    Meets (Fails cfg handler env M r) (fun r' => Effects cfg handler M r r' ∧
        r'.lastStableSeqNum = r.lastStableSeqNum ∧ r'.lastExecutedSeqNum = r.lastExecutedSeqNum ∧
        r'.checkpointsLog = r.checkpointsLog.set r.lastStableSeqNum
          (stableCheckpoint cfg env (r.checkpointsLog.lookup r.lastStableSeqNum) r.lastStableSeqNum))
      (r.onStablePointMoved cfg env) := by
  have hn := hw.holds_lastStable
  unfold onStablePointMoved
  refine meets_get hn (meets_assert_of (stableCheckpoint_complete _) ?_)
  have hset : Effect cfg handler M r (r.setCheckpoint r.lastStableSeqNum
      (stableCheckpoint cfg env (r.checkpointsLog.lookup r.lastStableSeqNum) r.lastStableSeqNum)) :=
    .checkpoint _ _ hM hn fun _ => hw.stable_le
  refine meets_ite (fun h => ?_) fun _ => .ok ⟨hset.effects, rfl, rfl, rfl⟩
  have hpropose : Does cfg handler env Scope.proposing _ _ :=
    tryToSendPrePrepareMsg_does (hset.wellFormed hw) h.1 h.2.2 false
  refine (Meets.mono hpropose fun r' heff => ?_).weaken fun e he =>
    Fails.after hset.effects (he.mono (Scope.proposing_le M))
  obtain ⟨hstable, hexec, hcps⟩ := heff.sameProgress
  exact ⟨hset.effects.trans (heff.mono (Scope.proposing_le M)), hstable, hexec, hcps⟩

/-- **The stable point moves** to a checkpoint that was executed. -/
theorem onSeqNumIsStable_does (hM : M.moves) (hw : WellFormed cfg r)
    (hmod : n % checkpointWindowSize = 0) (hle : n ≤ r.lastExecutedSeqNum) :
    Meets (Fails cfg handler env M r) (fun r' => Effects cfg handler M r r' ∧
        r'.lastStableSeqNum = max r.lastStableSeqNum n ∧
        r'.lastExecutedSeqNum = r.lastExecutedSeqNum ∧
        (r.lastStableSeqNum ≤ n → (r'.checkpointsLog.lookup n).executed =
          (r.checkpointsLog.lookup n).executed))
      (r.onSeqNumIsStable cfg env n) := by
  unfold onSeqNumIsStable
  refine meets_assert_of hmod (meets_ite (fun h => .ok ?_) fun h => ?_)
  · exact ⟨Effects.refl r, by lia, rfl, fun _ => rfl⟩
  have hcatch : r.catchUpWithStable cfg n = .ok r := catchUpWithStable_eq hle
  obtain ⟨log, cps, hadv, hadvanced⟩ := advanceStable_spec hw.mainLog_begin hw.checkpointsLog_begin
    hw.stable_mod hmod (le_of_lt (not_le.1 h))
  have hstable : Effect cfg handler M r (r.advanceTo n log cps) :=
    .stable n log cps hM hmod (not_le.1 h) hle hadvanced
  refine meets_ok_bind hcatch (meets_ok_bind hadv ?_)
  refine meets_after hstable.effects
    ((onStablePointMoved_does hM (hstable.wellFormed hw)).mono fun r' hr' => ?_)
  obtain ⟨heff, hst, hex, hcp⟩ := hr'
  refine ⟨hstable.effects.trans heff, ?_, hex, fun _ => ?_⟩
  · rw [hst]
    show n = max r.lastStableSeqNum n
    lia
  · have hholds : cps.Holds n := by
      rw [checkpointsLog_holds_iff, hadvanced.checkpointsLog_begin]
      exact ⟨hmod, by lia, by lia⟩
    rw [hcp]
    show ((cps.set n _).lookup n).executed = _
    rw [lookup_set_self, stableCheckpoint_executed]
    show (cps.lookup n).executed = _
    have hexec := hw.exec_le
    rw [hadvanced.checkpointsLog_lookup n hholds, if_pos]
    rw [hw.checkpointsLog_begin]
    unfold kWorkWindowSize at hexec
    lia

/-! ## Checkpoints -/

theorem executedByFullProof_eq (hw : WellFormed cfg r) :
    ∃ b, r.executedByFullProof = .ok b ∧ (b = true → r.mainLog.Holds r.lastExecutedSeqNum ∧
      (r.mainLog.lookup r.lastExecutedSeqNum).partialProofsSet.fullCommitProof.isSome = true) := by
  unfold executedByFullProof
  split_ifs with h
  · rw [get_eq (hw.holds_of_inside h)]
    exact ⟨_, rfl, fun hb => ⟨hw.holds_of_inside h, hb⟩⟩
  · exact ⟨false, rfl, nofun⟩

theorem setCheckpoint_effects (hM : M.moves) (hn : r.checkpointsLog.Holds n)
    (hle : n ≤ r.lastExecutedSeqNum) (info : CheckpointInfo) :
    Effects cfg handler M r (r.setCheckpoint n info) :=
  (Effect.checkpoint n info hM hn fun _ => hle).effects

theorem sendOrMarkCheckpoint_does (hM : M.moves) (hw : WellFormed cfg r)
    (hactive : r.currentViewIsActive = true) (hmod : n % checkpointWindowSize = 0)
    (hge : r.lastStableSeqNum ≤ n) (hle : n + MaxConcurrentFastPaths ≤ r.lastExecutedSeqNum)
    {info : CheckpointInfo}
    (hself : (info.selfCheckpointMsg cfg.toReplicasInfo cfg.myId).isSome = true)
    (m : CheckpointMsg) :
    Does cfg handler env M r (r.sendOrMarkCheckpoint cfg env n info m) := by
  have hle' : n ≤ r.lastExecutedSeqNum := by
    unfold MaxConcurrentFastPaths at hle
    lia
  have hn : r.checkpointsLog.Holds n :=
    hw.holds_checkpoint hmod hge (le_trans hle' hw.exec_le)
  obtain ⟨b, hb, hproof⟩ := executedByFullProof_eq hw
  unfold sendOrMarkCheckpoint
  refine meets_ok_bind hb (does_ite (fun hyes => ?_) fun _ => ?_)
  · obtain ⟨hs, hsome⟩ := hproof hyes
    have heff : Effects cfg handler M r ((r.setCheckpoint n
        (info.tryToMarkCheckpointCertificateCompleted cfg.toReplicasInfo cfg.myId)).record
          (.markCheckpoint n)) :=
      (setCheckpoint_effects hM hn hle' _).tail (.record _ ⟨hactive, hle, hs, hsome⟩)
    refine Does.after heff (meets_assert_of (CheckpointInfo.complete_tryToMark hself) ?_)
    refine (onSeqNumIsStable_does hM (heff.wellFormed hw) hmod hle').bind fun r' hr' => .ok ?_
    obtain ⟨heff', hst, hex, -⟩ := hr'
    have hw' := (heff.trans heff').wellFormed hw
    have hst' : r'.lastStableSeqNum = n := by
      rw [hst]
      show max r.lastStableSeqNum n = n
      lia
    refine heff'.trans (setCheckpoint_effects hM (hw'.holds_checkpoint hmod ?_ ?_) ?_ _)
    · lia
    · unfold kWorkWindowSize
      lia
    · rw [hex]
      exact hle'
  · refine .ok ((setCheckpoint_effects hM hn hle' _).trans (effects_sendToAll ?_))
    exact trivial

/-- The last checkpoint that the replica executed lies in the window. -/
theorem lastCheckpoint_holds (hw : WellFormed cfg r) :
    r.lastExecutedSeqNum / checkpointWindowSize * checkpointWindowSize ≤ r.lastExecutedSeqNum ∧
      r.lastExecutedSeqNum / checkpointWindowSize * checkpointWindowSize % checkpointWindowSize = 0 ∧
      r.lastStableSeqNum ≤ r.lastExecutedSeqNum / checkpointWindowSize * checkpointWindowSize ∧
      r.checkpointsLog.Holds (r.lastExecutedSeqNum / checkpointWindowSize * checkpointWindowSize) := by
  have hmod := hw.stable_mod
  have hle := hw.stable_le
  have hexec := hw.exec_le
  unfold kWorkWindowSize at hexec
  have hfacts : r.lastExecutedSeqNum / 150 * 150 ≤ r.lastExecutedSeqNum ∧
      r.lastExecutedSeqNum / 150 * 150 % 150 = 0 ∧
      r.lastStableSeqNum ≤ r.lastExecutedSeqNum / 150 * 150 := by
    unfold checkpointWindowSize at hmod
    lia
  obtain ⟨h1, h2, h3⟩ := hfacts
  refine ⟨h1, h2, h3, hw.holds_checkpoint h2 h3 ?_⟩
  unfold kWorkWindowSize checkpointWindowSize
  lia

theorem sendCheckpointIfNeeded_does (hM : M.moves) (hw : WellFormed cfg r) :
    Does cfg handler env M r (r.sendCheckpointIfNeeded cfg env) := by
  obtain ⟨hle, hmod, hge, hn⟩ := lastCheckpoint_holds hw
  unfold sendCheckpointIfNeeded
  refine does_skip fun hno => ?_
  have hactive : r.currentViewIsActive = true := by
    cases hactive : r.currentViewIsActive with
    | true => rfl
    | false => exact absurd (Or.inr (Or.inl hactive)) hno
  refine meets_require_bind (fun hout => absurd hn.2 hout) fun _ => meets_get hn ?_
  split
  next => exact does_refl r
  next m hself =>
    refine does_skip fun _ => ?_
    refine does_ite (fun _ => does_pure ?_) fun _ => ?_
    · refine (setCheckpoint_effects hM hn hle _).trans (effects_sendToAll ?_)
      exact trivial
    · refine does_skip fun hlate => ?_
      exact sendOrMarkCheckpoint_does hM hw hactive hmod hge (not_lt.1 hlate)
        (by rw [hself]; rfl) m

/-- The own checkpoint message, when the checkpoint was not executed before. -/
theorem addOwnCheckpoint_does (hM : M.moves) (hw : WellFormed cfg r)
    (hmod : r.lastExecutedSeqNum % checkpointWindowSize = 0)
    (hnew : (r.checkpointsLog.lookup r.lastExecutedSeqNum).executed = false) :
    Does cfg handler env M r (r.addOwnCheckpoint cfg env) := by
  have hn : r.checkpointsLog.Holds r.lastExecutedSeqNum :=
    hw.holds_checkpoint hmod hw.stable_le hw.exec_le
  unfold addOwnCheckpoint
  refine meets_get hn ?_
  generalize hinfo : (r.checkpointsLog.lookup r.lastExecutedSeqNum).addCheckpointMsg
    cfg.toReplicasInfo cfg.myId ⟨cfg.myId, r.lastExecutedSeqNum,
      env.digestOfCheckpoint r.lastExecutedSeqNum, false⟩ cfg.myId = info
  have hexecuted : info.executed = false := by
    rw [← hinfo]
    exact hnew
  have heff : Effects cfg handler M r (r.setCheckpoint r.lastExecutedSeqNum info) :=
    setCheckpoint_effects hM hn (le_refl _) info
  have hw₁ := heff.wellFormed hw
  refine Does.after heff ?_
  -- the certificate may be complete; the checkpoint stays in the window and is not executed yet
  have hstable : Meets (Fails cfg handler env M (r.setCheckpoint r.lastExecutedSeqNum info))
      (fun r' => Effects cfg handler M (r.setCheckpoint r.lastExecutedSeqNum info) r' ∧
        r'.lastStableSeqNum ≤ r.lastExecutedSeqNum ∧
        r'.lastExecutedSeqNum = r.lastExecutedSeqNum ∧
        (r'.checkpointsLog.lookup r.lastExecutedSeqNum).executed = false)
      (if info.isCheckpointCertificateComplete then
        (r.setCheckpoint r.lastExecutedSeqNum info).onSeqNumIsStable cfg env r.lastExecutedSeqNum
      else pure (r.setCheckpoint r.lastExecutedSeqNum info)) := by
    have hlook : (r.setCheckpoint r.lastExecutedSeqNum info).checkpointsLog.lookup
        r.lastExecutedSeqNum = info := lookup_set_self _ _ info
    refine meets_ite (fun _ => ?_) fun _ => .ok ⟨Effects.refl _, hw.stable_le, rfl, ?_⟩
    · refine (onSeqNumIsStable_does hM hw₁ hmod (le_refl _)).mono fun r' hr' => ?_
      obtain ⟨heff', hst, hex, hkeep⟩ := hr'
      refine ⟨heff', ?_, hex, ?_⟩
      · rw [hst]
        exact Int.max_le.2 ⟨hw.stable_le, Int.le_refl _⟩
      · rw [hkeep hw.stable_le, hlook]
        exact hexecuted
    · rw [hlook]
      exact hexecuted
  refine hstable.bind fun r' hr' => ?_
  obtain ⟨heff', hst, hex, hnot⟩ := hr'
  have hw' := heff'.wellFormed hw₁
  refine meets_assert_of hnot (.ok (heff'.trans (setCheckpoint_effects hM ?_ ?_ _)))
  · refine hw'.holds_checkpoint hmod hst ?_
    rw [← hex]
    exact hw'.exec_le
  · exact le_of_eq hex.symm

/-! ## Execution -/

theorem allocateLatestReply_asserts (cm : ClientsManager) (clientId : NodeIdType) (p : ReplicaId) :
    Asserts (fun _ => True) (cm.allocateMsgWithLatestReply cfg clientId p) := by
  refine asserts_bind fun _ => asserts_bind fun _ => asserts_bind fun _ => ?_
  exact asserts_bind fun _ => asserts_bind fun _ => .ok trivial

variable (cfg handler s) in
/-- The execution of requests stops at an assertion or at a missing proof. -/
theorem executeRequests_errors (x : Execution App) (reqs : List ClientRequestMsg)
    (p : ReplicaId) (sig : Option Bytes) :
    Meets (fun e => e = .assertion ∨ e = .noFullProof) (fun _ => True)
      (x.executeRequests cfg handler s p sig reqs) := by
  induction reqs generalizing x with
  | nil => exact .ok trivial
  | cons req rest ih =>
    have hassert : ∀ {α : Type} {y : Except Failure α}, Asserts (fun _ => True) y →
        Meets (fun e => e = .assertion ∨ e = .noFullProof) (fun _ => True) y :=
      fun h => Meets.weaken h fun e he => Or.inl he
    have hone : Meets (fun e => e = .assertion ∨ e = .noFullProof) (fun _ => True)
        (Execution.executeRequest cfg handler s p sig x req) := by
      unfold Execution.executeRequest
      refine meets_ite (fun _ => .ok trivial) fun _ => meets_ite (fun _ => ?_) fun _ => ?_
      · exact (hassert (allocateLatestReply_asserts _ _ _)).bind fun _ _ => .ok trivial
      · split
        next => exact .error (Or.inr rfl)
        next =>
          refine hassert (asserts_bind fun _ => asserts_bind fun _ => ?_)
          exact Asserts.bind (asserts_bind fun _ => .ok trivial) fun _ (_ : True) => .ok trivial
    exact hone.bind fun y _ => (ih y.1).bind fun _ _ => .ok trivial

theorem sendReplies_eq (replies : List (NodeIdType × ClientReplyMsg)) : ∃ new,
    replies.foldl (fun r reply => r.send (.clientReply reply.2) reply.1) r =
      { r with trace := new ++ r.trace } ∧
    ∀ a ∈ new, ∃ dest m, a = .send dest (.clientReply m) := by
  induction replies generalizing r with
  | nil => exact ⟨[], rfl, by simp⟩
  | cons reply rest ih =>
    obtain ⟨new, heq, hnew⟩ := ih (r := r.send (.clientReply reply.2) reply.1)
    refine ⟨new ++ [.send reply.1 (.clientReply reply.2)], ?_, ?_⟩
    · rw [List.foldl_cons, heq, List.append_assoc]
      rfl
    · intro a ha
      rcases List.mem_append.1 ha with ha | ha
      · exact hnew a ha
      · exact ⟨_, _, List.mem_singleton.1 ha⟩

/-- The checkpoints after an execution, when the last executed number was not marked as an executed
    checkpoint before. -/
theorem checkpointAfterExecution_does (hM : M.moves) (hw : WellFormed cfg r)
    (hs : r.mainLog.Holds r.lastExecutedSeqNum)
    (hnew : r.lastExecutedSeqNum % checkpointWindowSize = 0 →
      (r.checkpointsLog.lookup r.lastExecutedSeqNum).executed = false) :
    Does cfg handler env M r (r.checkpointAfterExecution cfg env) := by
  unfold checkpointAfterExecution
  refine meets_get hs (Does.bind (does_ite (fun hmod => ?_) fun _ => does_refl r)
    fun r₁ heff => sendCheckpointIfNeeded_does hM (heff.wellFormed hw))
  exact addOwnCheckpoint_does hM hw hmod (hnew hmod)

theorem finishExecution_spec (hM' : M.executes) (hactive : r.currentViewIsActive = true)
    (hcollecting : r.isCollectingState = false)
    (hs : r.mainLog.Holds (r.lastExecutedSeqNum + 1)) {pp : PrePrepareMsg}
    (hready : readyPrePrepare (r.mainLog.lookup (r.lastExecutedSeqNum + 1)) = some pp)
    {x : Execution App} {replies : List (NodeIdType × ClientReplyMsg)}
    (hexec : r.execution.executeRequests cfg handler (r.lastExecutedSeqNum + 1)
      (r.currentPrimary cfg) (r.proofOf (r.lastExecutedSeqNum + 1)) pp.requests =
        .ok (x, replies)) :
    ∃ r₁, (r.finishExecution x replies).record (.execute (r.lastExecutedSeqNum + 1) pp.requests
        (r.proofOf (r.lastExecutedSeqNum + 1))) = r₁ ∧
      Effects cfg handler M r r₁ ∧ r₁.lastExecutedSeqNum = r.lastExecutedSeqNum + 1 ∧
      r₁.mainLog = r.mainLog ∧ r₁.checkpointsLog = r.checkpointsLog ∧
      .execute (r.lastExecutedSeqNum + 1) pp.requests (r.proofOf (r.lastExecutedSeqNum + 1)) ∈
        r₁.trace := by
  obtain ⟨new, hreplies, hnew⟩ := sendReplies_eq (r := r) replies
  unfold finishExecution
  rw [hreplies]
  refine ⟨_, rfl, (effects_trace fun a ha t => ?_).tail
    (.execute pp x replies hM' hactive hcollecting hs hready hexec), rfl, rfl, rfl,
    List.mem_cons_self⟩
  obtain ⟨dest, m, rfl⟩ := hnew a ha
  trivial

theorem prePrepare_of_ready {info : SeqNumInfo} (h : readyPrePrepare info = some pp) :
    info.prePrepareMsg = some pp ∧ info.isCommitted = true := by
  unfold readyPrePrepare at h
  split at h
  next hc => exact ⟨h, hc⟩
  next => simp at h

/-- **The next number is executed**, or the execution of its requests fails. -/
theorem executeRequestsInPrePrepareMsg_does (hM : M.moves) (hM' : M.executes)
    (hw : WellFormed cfg r) (hactive : r.currentViewIsActive = true)
    (hcollecting : r.isCollectingState = false) (hs : r.mainLog.Holds (r.lastExecutedSeqNum + 1))
    (hready : readyPrePrepare (r.mainLog.lookup (r.lastExecutedSeqNum + 1)) = some pp) :
    Meets (Fails cfg handler env M r) (fun r' => Effects cfg handler M r r' ∧
        r'.lastExecutedSeqNum = r.lastExecutedSeqNum + 1 ∧
        .execute (r.lastExecutedSeqNum + 1) pp.requests (r.proofOf (r.lastExecutedSeqNum + 1)) ∈
          r'.trace)
      (r.executeRequestsInPrePrepareMsg cfg handler env pp) := by
  obtain ⟨hview, -⟩ := (hw.slots _ hs).pp pp (prePrepare_of_ready hready).1
  unfold executeRequestsInPrePrepareMsg
  refine meets_assert_of ⟨hcollecting, hactive⟩ (meets_assert_of hview (meets_get hs ?_))
  have hexec : Meets (Fails cfg handler env M r) (fun _ => True)
      (r.execution.executeRequests cfg handler (r.lastExecutedSeqNum + 1) (r.currentPrimary cfg)
        (r.proofOf (r.lastExecutedSeqNum + 1)) pp.requests) := by
    have herrors := executeRequests_errors cfg handler (r.lastExecutedSeqNum + 1) r.execution
      pp.requests (r.currentPrimary cfg) (r.proofOf (r.lastExecutedSeqNum + 1))
    cases hx : r.execution.executeRequests cfg handler (r.lastExecutedSeqNum + 1)
        (r.currentPrimary cfg) (r.proofOf (r.lastExecutedSeqNum + 1)) pp.requests with
    | ok p => exact .ok trivial
    | error e =>
      have hun : Unexecutable cfg handler r e := ⟨pp, hready, hs, hx⟩
      refine .error ⟨r, Effects.refl r, ?_⟩
      rcases herrors.of_error hx with rfl | rfl
      · exact Or.inr (Or.inr hun)
      · exact hun
  refine hexec.bind_eq fun p hp _ => ?_
  obtain ⟨x, replies⟩ := p
  obtain ⟨r₁, hr₁, heff, hlast₁, hlog₁, hcps₁, hmem⟩ :=
    finishExecution_spec (M := M) hM' hactive hcollecting hs hready hp
  have hw₁ := heff.wellFormed hw
  have hcheckpoints : Does cfg handler env Scope.checkpointing r₁
      (r₁.checkpointAfterExecution cfg env) := by
    refine checkpointAfterExecution_does trivial hw₁ (by rw [hlast₁, hlog₁]; exact hs) fun hmod => ?_
    rw [hlast₁] at hmod
    rw [hcps₁, hlast₁]
    cases hex : (r.checkpointsLog.lookup (r.lastExecutedSeqNum + 1)).executed with
    | false => rfl
    | true =>
      have hstable := hw.stable_le
      have hn : r.checkpointsLog.Holds (r.lastExecutedSeqNum + 1) :=
        hw.holds_checkpoint hmod (by lia) (hw.of_holds hs).2
      have hle := hw.checkpoints _ hn (Or.inr hex)
      lia
  show Meets _ _ (((r.finishExecution x replies).record (.execute (r.lastExecutedSeqNum + 1)
    pp.requests (r.proofOf (r.lastExecutedSeqNum + 1)))).checkpointAfterExecution cfg env)
  rw [hr₁]
  refine meets_after heff ((Meets.mono hcheckpoints fun r' heff' => ?_).weaken
    fun e he => he.mono (Scope.checkpointing_le hM))
  exact ⟨heff.trans (heff'.mono (Scope.checkpointing_le hM)),
    (heff'.executed_eq id id).trans hlast₁, heff'.progress.mem hmem⟩

/-- No number above `bound` is committed. -/
def CommittedUpTo (bound : SeqNum) (r : ReplicaImp App) : Prop :=
  ∀ s, r.mainLog.Holds s → (r.mainLog.lookup s).isCommitted = true → s ≤ bound

theorem CommittedUpTo.setSlot {bound : SeqNum} (h : CommittedUpTo bound r)
    (hn : r.mainLog.Holds n) {info : SeqNumInfo} (hinfo : info.isCommitted = true → n ≤ bound) :
    CommittedUpTo bound (r.setSlot n info) := by
  intro s hs hc
  rw [lookup_setSlot hn hs] at hc
  by_cases heq : s = n
  · rw [if_pos heq] at hc
    exact heq ▸ hinfo hc
  · rw [if_neg heq] at hc
    exact h s hs hc

/-- Execution commits nothing. -/
theorem Effects.committedUpTo {bound : SeqNum} (hfull : ¬ M.full) (hw : WellFormed cfg r)
    (h : CommittedUpTo bound r) (heff : Effects cfg handler M r r₁) : CommittedUpTo bound r₁ := by
  refine (heff.invariant (I := fun r₂ => WellFormed cfg r₂ ∧ CommittedUpTo bound r₂)
    (fun r₂ r₃ hI he => ⟨he.wellFormed hI.1, ?_⟩) ⟨hw, h⟩).2
  obtain ⟨hw₂, hc₂⟩ := hI
  cases he with
  | slot s info _ hs _ _ hcommit =>
    exact hc₂.setSlot hs fun hyes => hc₂ s hs ((hcommit.resolve_left hfull).symm.trans hyes)
  | accept s info pp _ hs _ _ _ _ _ hcommit _ =>
    exact hc₂.setSlot hs fun hyes => absurd (hcommit.symm.trans hyes) (by simp)
  | stable n log cps _ hmod hlt hle ha =>
    intro s hs hyes
    have hyes' : (log.lookup s).isCommitted = true := hyes
    rw [ha.mainLog_lookup s hs] at hyes'
    split at hyes'
    next hlt' =>
      refine hc₂ s (mainLog_holds_iff.2 ⟨?_, hlt'⟩) hyes'
      have hlo := (mainLog_holds_iff.1 hs).1
      have hlo' : n + 1 ≤ s := ha.mainLog_begin ▸ hlo
      rw [hw₂.mainLog_begin]
      lia
    next => exact absurd hyes' (by decide)
  | views _ hM | fetch _ _ hM | transfer _ _ hM | jump _ _ _ _ hM | leave _ _ _ _ hM
  | enter _ _ _ _ hM => exact absurd hM hfull
  | _ => exact hc₂

/-- The next number is executed if it is ready. -/
def ExecutesNext (r r' : ReplicaImp App) : Prop :=
  ∀ pp, r.mainLog.Holds (r.lastExecutedSeqNum + 1) →
    readyPrePrepare (r.mainLog.lookup (r.lastExecutedSeqNum + 1)) = some pp →
    r.lastExecutedSeqNum + 1 ≤ r'.lastExecutedSeqNum ∧
    .execute (r.lastExecutedSeqNum + 1) pp.requests (r.proofOf (r.lastExecutedSeqNum + 1)) ∈ r'.trace

/-- The loop, with enough rounds for the numbers that are committed. -/
theorem executeLoop_does (requestMissingInfo : Bool) {bound : SeqNum} {rounds : ℕ}
    (hw : WellFormed cfg r) (hactive : r.currentViewIsActive = true)
    (hcollecting : r.isCollectingState = false) (hbound : CommittedUpTo bound r)
    (hrounds : bound < r.lastExecutedSeqNum + rounds) (hpos : 0 < rounds) :
    Meets (Fails cfg handler env Scope.executing r)
      (fun r' => Effects cfg handler Scope.executing r r' ∧ ExecutesNext r r')
      (executeLoop cfg handler env requestMissingInfo rounds r) := by
  induction rounds generalizing r with
  | zero => simp at hpos
  | succ rounds ih =>
    unfold executeLoop
    refine meets_ite (fun hlt => ?_) fun hlt => .ok ⟨Effects.refl r, fun pp hs _ => ?_⟩
    · have hs : r.mainLog.Holds (r.lastExecutedSeqNum + 1) :=
        hw.holds (Int.lt_add_one_of_le hw.stable_le) hlt
      refine meets_get hs ?_
      split
      next hnone =>
        have hno : ∀ r', ExecutesNext r r' := fun r' pp _ hsome =>
          absurd (hnone.symm.trans hsome) (by simp)
        refine meets_ite (fun _ => ?_) fun _ => .ok ⟨Effects.refl r, hno r⟩
        exact Meets.mono (tryToSendReqMissingDataMsg_does hw _ _ _) fun r' heff => ⟨heff, hno r'⟩
      next pp hready =>
        obtain ⟨hpp, hcommitted⟩ := prePrepare_of_ready hready
        obtain ⟨hview, hseq, -⟩ := (hw.slots _ hs).pp pp hpp
        refine meets_assert_of hseq (meets_assert_of hview ?_)
        refine (executeRequestsInPrePrepareMsg_does (M := Scope.executing) trivial trivial hw
          hactive hcollecting hs hready).bind fun r₁ hr₁ => ?_
        obtain ⟨heff, hlast, hmem⟩ := hr₁
        have hsame := heff.sameView id
        have hle := hbound _ hs hcommitted
        refine meets_after heff ((ih (heff.wellFormed hw) (hsame.active.trans hactive)
          (hsame.collecting_eq.trans hcollecting) (heff.committedUpTo id hw hbound) ?_ ?_).mono
            fun r' hr' => ⟨heff.trans hr'.1, fun pp' _ hready' => ?_⟩)
        · lia
        · lia
        · obtain rfl := Option.some.inj (hready.symm.trans hready')
          have hprogress := hr'.1.progress
          exact ⟨hlast ▸ hprogress.executed_le, hprogress.mem hmem⟩
    · exact absurd ((hw.of_holds hs).2) (by lia)

/-- **Executing what is committed.** -/
theorem executeReadWriteRequests_meets (hw : WellFormed cfg r)
    (hactive : r.currentViewIsActive = true) (hcollecting : r.isCollectingState = false)
    (requestMissingInfo : Bool) :
    Meets (Fails cfg handler env Scope.executing r)
      (fun r' => Effects cfg handler Scope.executing r r' ∧ ExecutesNext r r')
      (r.executeReadWriteRequests cfg handler env requestMissingInfo) := by
  have hbound : CommittedUpTo (r.lastStableSeqNum + kWorkWindowSize) r :=
    fun s hs _ => (hw.of_holds hs).2
  unfold executeReadWriteRequests
  refine meets_assert_of ⟨hcollecting, hactive⟩ (meets_assert_of hw.stable_le ?_)
  have hle := hw.stable_le
  refine (executeLoop_does requestMissingInfo hw hactive hcollecting hbound ?_ ?_).bind
    fun r₁ hr₁ => ?_
  · unfold kWorkWindowSize
    lia
  · unfold kWorkWindowSize
    lia
  obtain ⟨heff, hnext⟩ := hr₁
  have hsame := heff.sameView id
  refine meets_ite (fun h => ?_) fun _ => .ok ⟨heff, hnext⟩
  have hpropose : Does cfg handler env Scope.executing r₁ _ :=
    tryToSendPrePrepareMsg_does (heff.wellFormed hw) (hsame.active.trans hactive) h.1 true
  refine meets_after heff (Meets.mono hpropose fun r' heff' => ⟨heff.trans heff', ?_⟩)
  intro pp hs hready
  obtain ⟨hlt, hmem⟩ := hnext pp hs hready
  have hprogress := heff'.progress
  exact ⟨le_trans hlt hprogress.executed_le, hprogress.mem hmem⟩

theorem executeReadWriteRequests_does (hM : M.moves) (hM' : M.executes) (hfull : M.full)
    (hw : WellFormed cfg r) (requestMissingInfo : Bool) :
    Does cfg handler env M r (r.executeReadWriteRequests cfg handler env requestMissingInfo) := by
  by_cases h : r.isCollectingState = false ∧ r.currentViewIsActive = true
  · have hdoes : Does cfg handler env Scope.executing r
        (r.executeReadWriteRequests cfg handler env requestMissingInfo) :=
      (executeReadWriteRequests_meets hw h.2 h.1 requestMissingInfo).mono fun _ hr' => hr'.1
    exact hdoes.mono (Scope.executing_le hM hM')
  · unfold executeReadWriteRequests
    exact meets_assert hfull fun hyes => absurd hyes h

theorem commitFullCommitProof_does (hM : M.moves) (hM' : M.executes) (hfull : M.full)
    (hw : WellFormed cfg r) (hactive : r.currentViewIsActive = true) (hs : r.mainLog.Holds s) :
    Does cfg handler env M r (r.commitFullCommitProof cfg handler env s) := by
  unfold commitFullCommitProof
  refine (meets_of_asserts hfull (SeqNumInfo.forceComplete_asserts (hw.slots s hs))).bind
    fun info hinfo => ?_
  have heff : Effect cfg handler M r (r.setSlot s info) :=
    .slot s info hactive hs hinfo.1 hinfo.2 (Or.inl hfull)
  exact Does.after heff.effects
    (executeReadWriteRequests_does hM hM' hfull (heff.wellFormed hw) _)

theorem executeReadOnlyRequest_does (hfull : M.full) (m : ClientRequestMsg) :
    Does cfg handler env M r (r.executeReadOnlyRequest cfg handler m) := by
  unfold executeReadOnlyRequest
  refine meets_assert hfull fun _ => meets_assert hfull fun _ => ?_
  refine does_ite (fun _ => does_pure (effects_send ?_ _)) fun _ => does_refl r
  exact trivial

end ReplicaImp

end ConcordBft
