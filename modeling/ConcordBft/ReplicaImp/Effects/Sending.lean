import ConcordBft.ReplicaImp.Effects.Rules

set_option autoImplicit false

/-! # The effects of sending and proposing

The functions of `ReplicaImp.Sending`. Proposing belongs to the scope `executing`, so the results
about it say precisely why it may stop. -/

namespace ConcordBft.ReplicaImp

open Checked SequenceWithActiveWindow Effects SeqNumInfo ClientsManager List

variable {App : Type} {cfg : ReplicaConfig} {handler : RequestsHandler App} {env : Env}
  {M : Scope App} {r r₁ r₂ : ReplicaImp App} {s : SeqNum} {pp : PrePrepareMsg}

/-! ## Messages -/

theorem effects_record {a : Action} (h : Recordable cfg M r a) :
    Effects cfg handler M r (r.record a) :=
  (Effect.record a h).effects

theorem effects_send {m : Msg} (h : Sendable cfg M r m) (dest : NodeIdType) :
    Effects cfg handler M r (r.send m dest) :=
  effects_record (a := .send dest m) h

theorem effects_sendToAll {m : Msg} (h : Sendable cfg M r m) :
    Effects cfg handler M r (r.sendToAllOtherReplicas m) :=
  effects_record (a := .sendToAllOtherReplicas m) h

/-- Several actions that are recordable in whatever order, the newest first. -/
theorem effects_trace {new : List Action}
    (h : ∀ a ∈ new, ∀ t, Recordable cfg M { r with trace := t } a) :
    Effects cfg handler M r { r with trace := new ++ r.trace } := by
  induction new with
  | nil => exact refl r
  | cons a rest ih =>
    refine (ih fun b hb => h b (mem_cons_of_mem a hb)).tail ?_
    exact .record a (h a mem_cons_self _)

/-! ## Code that only sends messages -/

/-- Nothing but messages was recorded, all of which may be sent in any scope. -/
def OnlySends (cfg : ReplicaConfig) (r r₁ : ReplicaImp App) : Prop :=
  ∃ new : List Action, r₁ = { r with trace := new ++ r.trace } ∧
    ∀ a ∈ new, ∀ (M : Scope App) t, Recordable cfg M { r with trace := t } a

/-- The code returns, and has only sent messages. -/
abbrev Sends (cfg : ReplicaConfig) (r : ReplicaImp App) (x : Except Failure (ReplicaImp App)) :
    Prop :=
  Meets (fun _ => False) (OnlySends cfg r) x

theorem OnlySends.refl (r : ReplicaImp App) : OnlySends cfg r r := ⟨[], rfl, by simp⟩

theorem OnlySends.record {a : Action}
    (h : ∀ (M : Scope App) t, Recordable cfg M { r with trace := t } a) :
    OnlySends cfg r (r.record a) :=
  ⟨[a], rfl, by simpa using h⟩

theorem OnlySends.trans (h : OnlySends cfg r r₁) (h' : OnlySends cfg r₁ r₂) :
    OnlySends cfg r r₂ := by
  obtain ⟨new, rfl, hnew⟩ := h
  obtain ⟨new', rfl, hnew'⟩ := h'
  refine ⟨new' ++ new, by simp, fun a ha => ?_⟩
  rcases mem_append.1 ha with ha | ha
  · exact hnew' a ha
  · exact hnew a ha

theorem OnlySends.effects (h : OnlySends cfg r r₁) : Effects cfg handler M r r₁ := by
  obtain ⟨new, rfl, hnew⟩ := h
  exact effects_trace fun a ha => hnew a ha M

theorem Sends.does {x : Except Failure (ReplicaImp App)} (h : Sends cfg r x) :
    Does cfg handler env M r x :=
  (h.mono fun _ => OnlySends.effects).weaken fun _ => False.elim

/-! ## Shares -/

/-- A slot changes, and the replica signs its PrePrepare. -/
theorem sign_effects (hactive : r.currentViewIsActive = true) (hs : r.mainLog.Holds s)
    {info : SeqNumInfo} (hslot : Effect cfg handler M r (r.setSlot s info))
    (hpp : info.prePrepareMsg = some pp) {v : Vote} (hsign : Signable v pp info) :
    Effects cfg handler M r
      ((r.setSlot s info).record (.sign v r.curView s pp.digestOfRequests)) := by
  have hlook : (r.setSlot s info).mainLog.lookup s = info := lookup_set_self _ s info
  refine hslot.effects.tail (.record _ ⟨rfl, hactive, hs, pp, ?_, rfl, ?_⟩)
  · rw [hlook]
    exact hpp
  · rw [hlook]
    exact hsign

variable (handler M) in
/-- The own share of the fast path is made or taken from the slot. -/
theorem selfPartialProof_meets (hw : WellFormed cfg r) (hactive : r.currentViewIsActive = true)
    (hs : r.mainLog.Holds s) (hpp : (r.mainLog.lookup s).prePrepareMsg = some pp)
    (hnone : (r.mainLog.lookup s).partialProofsSet.selfPartialCommitProof = none)
    (hpath : cfg.cVal ≠ 0 ∨ pp.firstPath ≠ .FAST_WITH_THRESHOLD) :
    ∃ r₁ part, r.selfPartialProof cfg s pp = .ok (r₁, part) ∧ part.seqNumber = pp.seqNumber ∧
      Effects cfg handler M r r₁ ∧
      (r₁.mainLog.lookup s).partialProofsSet.fullCommitProof = none := by
  have hinv := hw.slots s hs
  obtain ⟨hv, hseq, -⟩ := hinv.pp pp hpp
  obtain ⟨p, hp, hinv', hkeeps, hfull⟩ := addSelfProof_spec hinv hpp hnone
  have hslot : Effect cfg handler M r
      (r.setSlot s { r.mainLog.lookup s with partialProofsSet := p }) :=
    .slot s _ hactive hs hinv' hkeeps (Or.inr rfl)
  refine ⟨(r.setSlot s { r.mainLog.lookup s with partialProofsSet := p }).record
    (.sign (.fast pp.firstPath) r.curView pp.seqNumber pp.digestOfRequests),
    ⟨cfg.myId, r.curView, pp.seqNumber, pp.firstPath⟩, ?_, rfl, ?_, ?_⟩
  · simp only [selfPartialProof, partialProofs, PartialProofsSet.getSelfPartialCommitProof,
      hnone, Assert, require_of hpath, ok_bind, hp]
    rfl
  · rw [hseq]
    exact sign_effects hactive hs hslot hpp rfl
  · show ((r.mainLog.set s _).lookup s).partialProofsSet.fullCommitProof = none
    rw [lookup_set_self]
    exact hfull

/-- Sending shares changes the history only. -/
theorem sendToCollectors_spec {part : PartialCommitProofMsg} (hseq : part.seqNumber = s) :
    Effects cfg handler M r (r.sendToCollectors cfg part s) ∧
      (r.sendToCollectors cfg part s).mainLog = r.mainLog := by
  unfold sendToCollectors
  split_ifs with hle
  · generalize cfg.getCollectorsForPartialProofs r.curView s = routers
    induction routers generalizing r with
    | nil => exact ⟨refl r, rfl⟩
    | cons router rest ih =>
      rw [foldl_cons]
      split_ifs with hne
      · have hsend : Sendable cfg M r (.partialCommitProof part) := Or.inl (hseq ▸ hle)
        obtain ⟨heff, hlog⟩ := ih (r := r.send (.partialCommitProof part) router.toNat) hle
        exact ⟨(effects_send hsend router.toNat).trans heff, hlog⟩
      · exact ih hle
  · exact ⟨refl r, rfl⟩

theorem sendPartialProof_does (hw : WellFormed cfg r) (hactive : r.currentViewIsActive = true)
    (hs : r.mainLog.Holds s) (hpp : (r.mainLog.lookup s).prePrepareMsg = some pp)
    (hnone : (r.mainLog.lookup s).partialProofsSet.selfPartialCommitProof = none)
    (hpath : cfg.cVal ≠ 0 ∨ pp.firstPath ≠ .FAST_WITH_THRESHOLD) :
    Does cfg handler env M r (r.sendPartialProof cfg s) := by
  obtain ⟨r₁, part, hself, hseq, heff, hfull⟩ :=
    selfPartialProof_meets handler M hw hactive hs hpp hnone hpath
  have hopen : (r.mainLog.lookup s).partialProofs.hasFullProof = false := by
    have := ((hw.slots s hs).proofsInv.open_of_noSelf hnone).2.2.1
    simp [partialProofs, PartialProofsSet.hasFullProof, this]
  have hsent : Effects cfg handler M r₁ _ ∧ _ := sendToCollectors_spec hseq
  have hclosed : ((r₁.sendToCollectors cfg part pp.seqNumber).mainLog.lookup s).partialProofs.hasFullProof
      = false := by
    rw [hsent.2]
    simp [partialProofs, PartialProofsSet.hasFullProof, hfull]
  have heq : r.sendPartialProof cfg s = .ok (r₁.sendToCollectors cfg part pp.seqNumber) := by
    simp only [sendPartialProof, getPrePrepareMsg, hpp, hopen, hself]
    show (Checked.require Failure.notModelled _ >>= fun _ => pure _) = _
    rw [require_of hclosed]
    rfl
  rw [heq]
  exact .ok (heff.trans hsent.1)

/-- What `sendPreparePartial` does to a slot: nothing, or the own share is added, recorded and
    sent. -/
inductive Prepared (cfg : ReplicaConfig) (r : ReplicaImp App) (s : SeqNum) : ReplicaImp App → Prop
  | nothing : Prepared cfg r s r
  | share (info : SeqNumInfo) (pp : PrePrepareMsg) (sends : List Action)
      (hpp : (r.mainLog.lookup s).prePrepareMsg = some pp) (hinv : info.Inv cfg r.curView s)
      (hkeeps : SeqNumInfo.Keeps (r.mainLog.lookup s) info)
      (hcommit : info.isCommitted = (r.mainLog.lookup s).isCommitted)
      (hsends : ∀ a ∈ sends, ∃ dest p, a = .send dest (.preparePartial p)) :
      Prepared cfg r s { r.setSlot s info with
        trace := sends ++ .sign .prepare r.curView s pp.digestOfRequests :: r.trace }

theorem sendPreparePartial_spec (hactive : r.currentViewIsActive = true)
    (hinv : (r.mainLog.lookup s).Inv cfg r.curView s) :
    ∃ r₁, r.sendPreparePartial cfg s = .ok r₁ ∧ Prepared cfg r s r₁ := by
  unfold sendPreparePartial
  rw [Assert, require_of hactive, ok_bind]
  dsimp only [getPrePrepareMsg]
  cases hpp : (r.mainLog.lookup s).prePrepareMsg with
  | none => exact ⟨r, rfl, .nothing⟩
  | some pp =>
    dsimp only
    split_ifs with hdone
    · exact ⟨r, rfl, .nothing⟩
    obtain ⟨hself, hprep⟩ := not_or.1 hdone
    obtain ⟨-, hseq, -⟩ := hinv.pp pp hpp
    have hself' : (r.mainLog.lookup s).prepareSigCollector.hasPartialMsgFromReplica cfg.myId =
        false := by
      rw [getSelfPreparePartialMsg,
        CollectorOfThresholdSignatures.getPartialMsgFromReplica, Option.isSome_map] at hself
      exact Bool.not_eq_true _ ▸ hself
    obtain ⟨info, hinfo, hinv', hkeeps, -, hforced, hcommit⟩ :=
      addSelfPreparePartial_spec hinv hpp hself' (by simpa using hprep)
        (m := ⟨cfg.myId, r.curView, pp.seqNumber⟩) rfl
    rw [hinfo, ok_bind]
    have hcommitted : info.isCommitted = (r.mainLog.lookup s).isCommitted := by
      simp [isCommitted, hforced, hcommit]
    rw [hseq]
    split
    next => exact ⟨_, rfl, .share info pp [] hpp hinv' hkeeps hcommitted (by simp)⟩
    next =>
      exact ⟨_, rfl, .share info pp [_] hpp hinv' hkeeps hcommitted (by
        intro a ha
        exact ⟨_, _, mem_singleton.1 ha⟩)⟩

theorem Prepared.effects (hactive : r.currentViewIsActive = true) (hs : r.mainLog.Holds s)
    (h : Prepared cfg r s r₁) : Effects cfg handler M r r₁ := by
  cases h with
  | nothing => exact refl r
  | share info pp sends hpp hinv hkeeps hcommit hsends =>
    have hslot : Effect cfg handler M r (r.setSlot s info) :=
      .slot s info hactive hs hinv hkeeps (Or.inr hcommit)
    have hsign := sign_effects (v := .prepare) hactive hs hslot (hkeeps.pp_eq.trans hpp) trivial
    refine hsign.trans (effects_trace fun a ha t => ?_)
    obtain ⟨dest, p, rfl⟩ := hsends a ha
    trivial

theorem sendPreparePartial_does (hw : WellFormed cfg r) (hactive : r.currentViewIsActive = true)
    (hs : r.mainLog.Holds s) : Does cfg handler env M r (r.sendPreparePartial cfg s) := by
  obtain ⟨r₁, heq, hprep⟩ := sendPreparePartial_spec hactive (hw.slots s hs)
  rw [heq]
  exact .ok (hprep.effects hactive hs)

/-- The own commit share, for a slot with a valid prepare signature. -/
theorem sendCommitPartial_does (hfull : M.full) (hw : WellFormed cfg r)
    (hprep : (r.mainLog.lookup s).prepareSigCollector.combinedValidSignatureMsg.isSome = true) :
    Does cfg handler env M r (r.sendCommitPartial cfg s) := by
  unfold sendCommitPartial
  refine meets_assert hfull fun hactive => meets_assert hfull fun hin => ?_
  have hs : r.mainLog.Holds s := hw.holds_of_inside hin
  refine meets_get hs (meets_assert hfull fun _ => ?_)
  split
  next => exact .error (fails_assertion hfull)
  next pp hpp =>
    refine meets_assert hfull fun hseq => meets_ite (fun _ => .ok (refl r)) fun _ => ?_
    refine (meets_of_asserts hfull (addSelfCommitPartial_asserts (hw.slots s hs) hpp
      hprep rfl rfl)).bind fun info hquiet => ?_
    have hslot : Effect cfg handler M r (r.setSlot s info) :=
      .slot s info hactive hs hquiet.inv hquiet.keeps (Or.inl hfull)
    have hprep' : Signable .commit pp info := by
      obtain ⟨m, hm⟩ := Option.isSome_iff_exists.1 hprep
      exact Option.isSome_of_eq_some (hquiet.keeps.prepared m hm)
    have heff := sign_effects hactive hs hslot (hquiet.keeps.pp_eq.trans hpp) hprep'
    refine meets_ite (fun _ => .ok heff) fun _ => .ok (heff.trans ?_)
    refine effects_send ?_ _
    exact trivial

/-! ## Proposing -/

/-- Moving requests from the queue to a PrePrepare: only bytes after a request can stop it, and a
    first request that fits is taken. -/
theorem takeRequests_meets (queue : List ClientRequestMsg) (size : ℕ) (cm : ClientsManager)
    (added : List ClientRequestMsg) :
    Meets (fun e => e = .assertion ∧ ∃ m ∈ queue, m.trailing ≠ 0)
      (fun p => p.1.reservedPages = cm.reservedPages ∧
        (∀ i, p.1.seqNumberOfLastReplyToClient i = cm.seqNumberOfLastReplyToClient i) ∧
        (∀ m ∈ p.2.2, m ∈ queue) ∧ added.length ≤ p.2.1.length ∧
        ∀ m rest, queue = m :: rest → m.size ≤ size →
          cm.noPendingAndRequestCanBecomePending m.clientProxyId m.requestSeqNum = true →
          added.length < p.2.1.length)
      (takeRequests queue size cm added) := by
  induction queue generalizing size cm added with
  | nil => exact .ok ⟨rfl, fun _ => rfl, by simp, le_refl _, fun m rest h => by simp at h⟩
  | cons m rest ih =>
    unfold takeRequests
    refine meets_ite (fun hfits => meets_ite (fun hcan => ?_) fun hcan => ?_) fun hfits => ?_
    · refine meets_require_bind (fun htrail => ⟨rfl, m, mem_cons_self, ?_⟩) fun _ => ?_
      · intro hzero
        exact htrail (by simp [ClientRequestMsg.size, hzero])
      obtain ⟨hpending, hlt⟩ := Bool.and_eq_true_iff.1 hcan
      have hlt' := of_decide_eq_true hlt
      have hadd : cm.addPendingRequest m.clientProxyId m.requestSeqNum =
          .ok (cm.updateClient m.clientProxyId fun c =>
            { c with currentPendingRequest := m.requestSeqNum }) := by
        unfold addPendingRequest
        rw [Assert, require_of hlt', Assert, require_of (by lia)]
        rfl
      rw [hadd]
      refine ((ih _ _ _).mono fun p hp => ?_).weaken fun e he => ⟨he.1, ?_⟩
      · obtain ⟨hpages, hreplies, hqueue, hlen, -⟩ := hp
        rw [length_append, length_singleton] at hlen
        refine ⟨hpages, fun i => (hreplies i).trans ?_, fun x hx =>
          mem_cons_of_mem m (hqueue x hx), by omega, fun _ _ _ _ _ => by omega⟩
        by_cases hi : i = m.clientProxyId
        · subst hi
          simp [seqNumberOfLastReplyToClient, updateClient]
        · simp [seqNumberOfLastReplyToClient, updateClient, hi]
      · obtain ⟨x, hx, hne⟩ := he.2
        exact ⟨x, mem_cons_of_mem m hx, hne⟩
    · refine ((ih _ _ _).mono fun p hp => ?_).weaken fun e he => ⟨he.1, ?_⟩
      · obtain ⟨hpages, hreplies, hqueue, hlen, -⟩ := hp
        refine ⟨hpages, hreplies, fun x hx => mem_cons_of_mem m (hqueue x hx), hlen, ?_⟩
        intro m' rest' heq _ hcan'
        obtain ⟨rfl, -⟩ := cons.inj heq
        exact absurd hcan' hcan
      · obtain ⟨x, hx, hne⟩ := he.2
        exact ⟨x, mem_cons_of_mem m hx, hne⟩
    · refine .ok ⟨rfl, fun _ => rfl, fun _ hx => hx, le_refl _, ?_⟩
      intro m' rest' heq hfits' _
      obtain ⟨rfl, -⟩ := cons.inj heq
      exact absurd hfits' hfits

theorem updateBatchingFactor_effects : Effects cfg handler M r r.updateBatchingFactor := by
  unfold updateBatchingFactor
  split_ifs with h
  · exact .bookkeeping rfl (fun _ hm => Or.inl hm) (Or.inr rfl)
  · exact refl r

theorem updateBatchingFactor_eq : ∃ maxNumber factor, r.updateBatchingFactor = { r with
    maxNumberOfPendingRequestsInRecentHistory := maxNumber, batchingFactor := factor } := by
  unfold updateBatchingFactor
  split_ifs with h
  · exact ⟨_, _, rfl⟩
  · exact ⟨_, _, rfl⟩

section

variable (hw : WellFormed cfg r) (hactive : r.currentViewIsActive = true) (hs : r.mainLog.Holds s)
include hw hactive hs

theorem startSlowPath_effects :
    Effects cfg handler M r (r.setSlot s (r.mainLog.lookup s).startSlowPath) :=
  (Effect.slot s _ hactive hs (hw.slots s hs).startSlowPath (Keeps.startSlowPath _)
    (Or.inr rfl)).effects

/-- The replica starts the slow path of a number and makes its share. -/
theorem startSlowPath_does : Does cfg handler env M r
      ((r.setSlot s (r.mainLog.lookup s).startSlowPath).sendPreparePartial cfg s) := by
  have heff : Effects cfg handler M r (r.setSlot s (r.mainLog.lookup s).startSlowPath) :=
    startSlowPath_effects hw hactive hs
  exact Does.after heff (sendPreparePartial_does (heff.wellFormed hw) hactive hs)

/-- A PrePrepare is taken by its empty slot. -/
theorem accept_effects (hstrict : r.strictLowerBoundOfSeqNums < s)
    (hprimary : r.isCurrentPrimary cfg = true → s ≤ r.primaryLastUsedSeqNum) {info : SeqNumInfo}
    (hnone : (r.mainLog.lookup s).prePrepareMsg = none) (hinv : info.Inv cfg r.curView s)
    (hpp : info.prePrepareMsg = some pp) (hfits : pp.DigestFits cfg)
    (hforced : info.forcedCompleted = false)
    (hcommit : info.commitMsgsCollector = (r.mainLog.lookup s).commitMsgsCollector) :
    Effects cfg handler M r
      ((r.setSlot s info).record (.accept r.curView s pp.digestOfRequests)) := by
  obtain ⟨-, -, -, -, hzero, -⟩ := (hw.slots s hs).noPP hnone
  have hopen : info.isCommitted = false :=
    hinv.not_committed (by rw [hcommit]; exact hzero) hforced
  exact (Effect.accept s info pp hactive hs hstrict hinv hnone hpp hfits hopen hprimary).effects

end

/-- The PrePrepare of the primary for an empty slot. -/
theorem proposePrePrepare_does (hw : WellFormed cfg r) (hactive : r.currentViewIsActive = true)
    (hprimary : r.isCurrentPrimary cfg = true) (hs : r.mainLog.Holds pp.seqNumber)
    (hnone : (r.mainLog.lookup pp.seqNumber).prePrepareMsg = none)
    (hstrict : r.strictLowerBoundOfSeqNums < pp.seqNumber)
    (hused : pp.seqNumber ≤ r.primaryLastUsedSeqNum) (hview : pp.viewNumber = r.curView)
    (hfits : pp.DigestFits cfg) (hpath : cfg.cVal ≠ 0 ∨ pp.firstPath ≠ .FAST_WITH_THRESHOLD) :
    Does cfg handler env M r (r.proposePrePrepare cfg pp) := by
  have heff₁ : Effects cfg handler M r (r.sendToAllOtherReplicas (.prePrepare pp)) :=
    effects_sendToAll trivial
  have hw₁ := heff₁.wellFormed hw
  have hne : pp.seqNumber ≠ 0 := by
    have hpos := hw.stable_nonneg
    have hlt := (hw.of_holds hs).1
    lia
  obtain ⟨info, hadd, hinv, hinfo, hforced, hproofs, hcommit⟩ :=
    addSelfPrePrepare_spec (hw.slots _ hs) hnone hview rfl hne (eq_of_beq hprimary).symm
  have heff₂ : Effects cfg handler M r (((r.sendToAllOtherReplicas (.prePrepare pp)).setSlot
      pp.seqNumber info).record (.accept r.curView pp.seqNumber pp.digestOfRequests)) :=
    heff₁.trans (accept_effects hw₁ hactive hs hstrict (fun _ => hused) hnone hinv hinfo hfits
      hforced hcommit)
  have hw₂ := heff₂.wellFormed hw
  have hlook : ((((r.sendToAllOtherReplicas (.prePrepare pp)).setSlot
      pp.seqNumber info).record (.accept r.curView pp.seqNumber pp.digestOfRequests)).mainLog.lookup
        pp.seqNumber) = info := lookup_set_self _ _ info
  unfold proposePrePrepare
  refine meets_get hs (meets_ok_bind hadd (Does.after heff₂ (does_ite (fun _ => ?_) fun _ => ?_)))
  · have hslow : Does cfg handler env M _ _ := startSlowPath_does hw₂ hactive hs
    rw [hlook] at hslow
    exact hslow
  · refine sendPartialProof_does hw₂ hactive hs (by rw [hlook]; exact hinfo) ?_ hpath
    rw [hlook, hproofs]
    exact ((hw.slots _ hs).noPP hnone).2.2.2.2.2

theorem proposeRequests_does (hw : WellFormed cfg r) (hactive : r.currentViewIsActive = true)
    (hprimary : r.isCurrentPrimary cfg = true) (hs : r.mainLog.Holds r.primaryLastUsedSeqNum)
    (hnone : (r.mainLog.lookup r.primaryLastUsedSeqNum).prePrepareMsg = none)
    (hstrict : r.strictLowerBoundOfSeqNums < r.primaryLastUsedSeqNum)
    (hmax : r.primaryLastUsedSeqNum ≤ r.lastExecutedSeqNum + MaxConcurrentFastPaths)
    {m : ClientRequestMsg} {rest : List ClientRequestMsg}
    (hqueue : r.requestsQueueOfPrimary = m :: rest)
    (hcan : r.execution.clientsManager.noPendingAndRequestCanBecomePending m.clientProxyId
      m.requestSeqNum = true) :
    Does cfg handler env M r (r.proposeRequests cfg env) := by
  have hblocked : ((cfg.cVal = 0 ∧ ∃ s, env.currentFirstPath s = .FAST_WITH_THRESHOLD) ∨
      ∃ m ∈ r.requestsQueueOfPrimary, m.trailing ≠ 0 ∨ sizeForRequests < m.size) →
      Fails cfg handler env M r .assertion := fun h =>
    ⟨r, refl r, Or.inr (Or.inl ⟨hactive, hprimary, h⟩)⟩
  unfold proposeRequests
  refine meets_assert_of hmax (meets_require_bind (fun hpath => ?_) fun hpath => ?_)
  · obtain ⟨hc, hfast⟩ := not_or.1 hpath
    exact hblocked (Or.inl ⟨not_not.1 hc, _, not_not.1 hfast⟩)
  have htake : Meets (Fails cfg handler env M r) _ (takeRequests r.requestsQueueOfPrimary
      sizeForRequests r.execution.clientsManager []) :=
    (takeRequests_meets r.requestsQueueOfPrimary sizeForRequests
      r.execution.clientsManager []).weaken (by
        rintro e ⟨rfl, x, hx, hne⟩
        exact hblocked (Or.inr ⟨x, hx, Or.inl hne⟩))
  refine htake.bind fun p hp => ?_
  obtain ⟨cm, requests, queue⟩ := p
  obtain ⟨hpages, hreplies, hsub, -, hhead⟩ := hp
  refine meets_require_bind (fun hempty => ?_) fun _ => ?_
  · refine hblocked (Or.inr ⟨m, by rw [hqueue]; exact mem_cons_self, Or.inr ?_⟩)
    by_contra hfits
    exact hempty (hhead m rest hqueue (not_lt.1 hfits) hcan)
  -- the clients and the queue change
  have heff : Effects cfg handler M r { r with
      requestsQueueOfPrimary := queue
      execution := { r.execution with clientsManager := cm } } :=
    (Effect.clients cm hpages hreplies).effects.trans
      (.bookkeeping rfl (fun x hx => Or.inl (hsub x hx)) (Or.inr rfl))
  exact Does.after heff (proposePrePrepare_does (heff.wellFormed hw) hactive hprimary hs hnone
    hstrict (le_refl _) rfl rfl hpath)

/-- The next number of the primary. -/
theorem sendPrePrepare_does (hw : WellFormed cfg r) (hactive : r.currentViewIsActive = true)
    (hprimary : r.isCurrentPrimary cfg = true)
    (hwindow : r.primaryLastUsedSeqNum + 1 ≤ r.lastStableSeqNum + kWorkWindowSize)
    (hmax : r.primaryLastUsedSeqNum + 1 ≤ r.lastExecutedSeqNum + cfg.maxConcurrentAgreementsByPrimary)
    {m : ClientRequestMsg} {rest : List ClientRequestMsg}
    (hqueue : r.requestsQueueOfPrimary = m :: rest)
    (hcan : r.execution.clientsManager.noPendingAndRequestCanBecomePending m.clientProxyId
      m.requestSeqNum = true) :
    Does cfg handler env M r (r.sendPrePrepare cfg env) := by
  have huse : Effect cfg handler M r
      { r with primaryLastUsedSeqNum := r.primaryLastUsedSeqNum + 1 } :=
    .use _ (le_of_lt (Int.lt_succ _)) hwindow
  have heff := huse.effects.trans updateBatchingFactor_effects
  have hw₁ := heff.wellFormed hw
  have hs : r.mainLog.Holds (r.primaryLastUsedSeqNum + 1) :=
    hw.holds (lt_of_le_of_lt hw.used_ge (Int.lt_succ _)) hwindow
  obtain ⟨hstrict, hnone⟩ := hw.primary hactive hprimary
  have hlevel := cfg.concurrencyLevel_le
  obtain ⟨maxNumber, factor, heq⟩ := updateBatchingFactor_eq (r := { r with
    primaryLastUsedSeqNum := r.primaryLastUsedSeqNum + 1 })
  unfold sendPrePrepare
  refine Does.after heff ?_
  rw [heq] at hw₁ ⊢
  refine proposeRequests_does hw₁ hactive hprimary hs (hnone _ hs (Int.lt_succ _))
    (Int.lt_add_one_of_le hstrict) ?_ hqueue hcan
  show r.primaryLastUsedSeqNum + 1 ≤ r.lastExecutedSeqNum + MaxConcurrentFastPaths
  unfold ReplicaConfig.maxConcurrentAgreementsByPrimary at hmax
  unfold maxLegalConcurrentAgreementsByPrimary at hlevel
  unfold MaxConcurrentFastPaths
  lia

theorem removeIrrelevantRequests_effects : Effects cfg handler M r r.removeIrrelevantRequests :=
  .bookkeeping rfl (fun _ hm => Or.inl (dropWhile_subset _ hm)) (Or.inr rfl)

variable (cfg handler M) in
theorem maxNumber_effects (r : ReplicaImp App) (n : ℕ) : Effects cfg handler M r
    { r with maxNumberOfPendingRequestsInRecentHistory := n } :=
  .bookkeeping rfl (fun _ hm => Or.inl hm) (Or.inr rfl)

section

variable (hw : WellFormed cfg r)
include hw

/-- **Proposing.** The primary proposes its next number, or stops because its counter is behind its
    execution or because it is `Blocked`. -/
theorem tryToSendPrePrepareMsg_does (hactive : r.currentViewIsActive = true)
    (hprimary : r.isCurrentPrimary cfg = true) (batchingLogic : Bool) :
    Does cfg handler env M r (r.tryToSendPrePrepareMsg cfg env batchingLogic) := by
  unfold tryToSendPrePrepareMsg
  refine meets_assert_of ⟨hprimary, hactive⟩ ?_
  refine does_skip fun hwindow => ?_
  refine does_skip fun hmax => ?_
  have heff : Effects cfg handler M r r.removeIrrelevantRequests :=
    removeIrrelevantRequests_effects
  refine Does.after heff ?_
  have hw₁ := heff.wellFormed hw
  refine does_skip fun hlen => ?_
  refine meets_require_bind (fun hbehind => ?_) fun _ => ?_
  · exact ⟨_, refl _, hactive, hprimary, not_le.1 hbehind⟩
  obtain ⟨m, rest, hqueue⟩ := exists_cons_of_length_pos (pos_of_ne_zero hlen)
  -- the first request that is left can become pending
  have hcan : r.execution.clientsManager.noPendingAndRequestCanBecomePending m.clientProxyId
      m.requestSeqNum = true := by
    have hhead := head?_dropWhile_not (fun (first : ClientRequestMsg) =>
      !r.execution.clientsManager.noPendingAndRequestCanBecomePending first.clientProxyId
        first.requestSeqNum) r.requestsQueueOfPrimary
    have hdrop : r.requestsQueueOfPrimary.dropWhile (fun (first : ClientRequestMsg) =>
      !r.execution.clientsManager.noPendingAndRequestCanBecomePending first.clientProxyId
        first.requestSeqNum) = m :: rest := hqueue
    rw [hdrop] at hhead
    simpa using hhead
  have hnumber := maxNumber_effects cfg handler M r.removeIrrelevantRequests
  refine does_ite (fun _ => does_pure (hnumber _)) fun _ => ?_
  exact Does.after (hnumber _) (sendPrePrepare_does ((hnumber _).wellFormed hw₁) hactive hprimary
    (not_lt.1 hwindow) (not_lt.1 hmax) hqueue hcan)

/-! ## Asking other replicas -/

/-- The numbers of missing PrePrepares are in the window. -/
theorem mem_missingPP (hpending : r.viewsManager.viewIsPending r.curView = true) {i : SeqNum}
    (hi : i ∈ r.viewsManager.getNumbersOfMissingPP r.lastStableSeqNum) :
    r.lastStableSeqNum < i ∧ i ≤ r.lastStableSeqNum + kWorkWindowSize := by
  unfold ViewsManager.getNumbersOfMissingPP at hi
  by_cases hnone : r.viewsManager.stat ≠ .PENDING_WITH_RESTRICTIONS ∨
      r.viewsManager.minRestrictionOfPendingView = 0
  · rw [if_pos hnone] at hi
    simp at hi
  rw [if_neg hnone] at hi
  obtain ⟨hstat, hmin⟩ := not_or.1 hnone
  obtain ⟨hlo, hhi⟩ := ViewsManager.mem_seqNums.1 (mem_filter.1 hi).1
  have hstat' := not_not.1 hstat
  have hview : r.viewsManager.myLatestPendingView = r.curView := by
    have := (Bool.and_eq_true _ _).mp hpending
    exact (beq_iff_eq.1 this.1).symm
  obtain ⟨arr, -, hout⟩ := hw.views.computed hstat' hview
  obtain ⟨⟨-, hin⟩, -⟩ :=
    (ViewChangeSafetyLogic.computeRestrictions_asserts cfg.safetyLogic _ _ arr).of_ok hout
  have hsome : cfg.safetyLogic.createIterators r.viewsManager.viewChangeMsgsOfPendingView
      (r.viewsManager.lowerBoundStableForPendingView + 1) ≠ [] := by
    intro hnil
    exact hmin (hin.none fun hne => hne hnil).1
  have hmax := (hin.some hsome).2
  have hwithin := hw.within hstat'
  have hmax' : r.viewsManager.maxRestrictionOfPendingView = r.viewsManager.lowerBoundStableForPendingView +
      kWorkWindowSize - checkpointWindowSize ∨ r.viewsManager.maxRestrictionOfPendingView =
      r.viewsManager.lowerBoundStableForPendingView + kWorkWindowSize := hmax
  unfold checkpointWindowSize at hmax'
  lia

theorem tryToSendStatusReport_sends : Sends cfg r (r.tryToSendStatusReport cfg env) := by
  unfold tryToSendStatusReport
  refine meets_ite (fun _ => .ok (OnlySends.refl r)) fun _ => ?_
  have hnew : Meets (fun _ => False) (fun _ => True)
      (r.viewsManager.hasNewViewMessage cfg r.curView) := by
    unfold ViewsManager.hasNewViewMessage
    refine meets_require_bind (fun hno => hno hw.views.pending_le) fun _ => ?_
    exact meets_ite (fun _ => .ok trivial) fun _ => .ok trivial
  refine hnew.bind fun _ _ => ?_
  have hwindow : Meets (fun _ => False) (fun _ => True)
      (if r.currentViewIsActive then do
        let infos ← (seqNums (r.lastStableSeqNum + 1)
          (r.lastStableSeqNum + kWorkWindowSize)).mapM fun i => do
            let info ← r.mainLog.get i
            pure (i, info.hasPrePrepareMsg)
        pure (some ((infos.filter (·.2)).map (·.1)))
      else pure none) := by
    refine meets_ite (fun _ => Meets.bind (meets_mapM (fun _ _ => True) fun i hi => ?_)
      fun _ _ => .ok trivial) fun _ => .ok trivial
    obtain ⟨hlo, hhi⟩ := ViewsManager.mem_seqNums.1 hi
    exact meets_get (hw.holds hlo hhi) (.ok trivial)
  refine hwindow.bind fun inWindow _ => meets_require_bind (fun hno => hno ?_) fun _ =>
    .ok (OnlySends.record fun _ _ => trivial)
  split_ifs with hpending
  · rw [Option.all_some, all_eq_true]
    intro i hi
    obtain ⟨hlo, hhi⟩ := mem_missingPP hw ((Bool.and_eq_true _ _).mp hpending).2 hi
    simp [hlo, hhi]
  · rfl

end

/-- A message that is relevant is for the active view and for a number of the window. -/
theorem relevantMsgForActiveView_meets (hfull : M.full) (hw : WellFormed cfg r) (v : ViewNum)
    (s : SeqNum) :
    Meets (Fails cfg handler env M r)
      (fun p => Effects cfg handler M r p.1 ∧ (p.2 = true → p.1 = r ∧
        r.currentViewIsActive = true ∧ v = r.curView ∧ r.strictLowerBoundOfSeqNums < s ∧
        r.mainLog.Holds s))
      (r.relevantMsgForActiveView cfg env v s) := by
  unfold relevantMsgForActiveView
  refine meets_ite (fun h => ?_) fun _ => ?_
  · obtain ⟨hactive, hview, hstrict, hin⟩ := h
    refine meets_assert hfull fun _ => meets_assert hfull fun _ => .ok ⟨refl r, fun _ => ?_⟩
    exact ⟨rfl, hactive, hview, hstrict, hw.holds_of_inside hin⟩
  · refine meets_ite (fun _ => ?_) fun _ => .ok ⟨refl r, nofun⟩
    exact Meets.bind (tryToSendStatusReport_sends hw).does fun r₁ heff => .ok ⟨heff, nofun⟩

theorem tryToSendReqMissingDataMsg_does (hw : WellFormed cfg r) (s : SeqNum) (slowPathOnly : Bool)
    (dest : Option ReplicaId) :
    Does cfg handler env M r (r.tryToSendReqMissingDataMsg cfg env s slowPathOnly dest) := by
  unfold tryToSendReqMissingDataMsg
  refine does_skip fun h => ?_
  have hin : r.mainLog.insideActiveWindow s = true := by
    cases hin : r.mainLog.insideActiveWindow s with
    | true => rfl
    | false => exact absurd (Or.inr (Or.inr hin)) h
  refine meets_get (hw.holds_of_inside hin) ?_
  refine does_skip fun _ => does_pure (effects_foldl ?_)
  intro d _ r₁ _
  split
  next =>
    refine effects_send ?_ d
    exact trivial
  next => exact refl r₁

end ConcordBft.ReplicaImp
