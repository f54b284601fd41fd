import ConcordBft.ReplicaImp.Effects.Execution

set_option autoImplicit false

/-! # The effects of view changes and state transfers

The functions of `ReplicaImp.ViewChange`. Leaving a view, entering one and adopting the state of a
checkpoint are one effect each. -/

namespace ConcordBft.ReplicaImp

open Checked SequenceWithActiveWindow ViewsManager ViewChangeMsg List

variable {App : Type} {cfg : ReplicaConfig} {handler : RequestsHandler App} {env : Env}
  {M : Scope App} {r r₁ : ReplicaImp App} {s n : SeqNum}

/-! ## Leaving a view -/

/-- The slots of the given numbers are emptied into the list of what they held. -/
theorem takePrevViewInfo_asserts {numbers : List SeqNum} (hnodup : numbers.Nodup)
    (hholds : ∀ i ∈ numbers, r.mainLog.Holds i) :
    Asserts (fun p => ∃ log : MainLog, p.1 = { r with mainLog := log } ∧
        log.beginningOfActiveWindow = r.mainLog.beginningOfActiveWindow ∧
        (∀ s, r.mainLog.Holds s → log.lookup s = if s ∈ numbers then {} else r.mainLog.lookup s) ∧
        p.2 = numbers.filterMap r.prevViewInfo)
      (takePrevViewInfo numbers r) := by
  induction numbers generalizing r with
  | nil => exact .ok ⟨r.mainLog, rfl, rfl, fun s _ => by simp, rfl⟩
  | cons i rest ih =>
    have hi := hholds i mem_cons_self
    obtain ⟨hnot, hrest⟩ := nodup_cons.1 hnodup
    have hslot : ∀ s, r.mainLog.Holds s →
        (r.setSlot i {}).mainLog.lookup s = if s = i then {} else r.mainLog.lookup s :=
      fun s hs => lookup_setSlot hi hs {}
    -- the other slots hold what they held before
    have hsame : rest.filterMap (r.setSlot i {}).prevViewInfo = rest.filterMap r.prevViewInfo := by
      refine filterMap_congr fun k hk => ?_
      have hne : k ≠ i := fun heq => hnot (heq ▸ hk)
      unfold prevViewInfo
      rw [hslot k (hholds k (mem_cons_of_mem i hk)), if_neg hne]
    have hih := (ih (r := r.setSlot i {}) hrest fun k hk => hholds k (mem_cons_of_mem i hk))
    have hlook : ∀ {log : MainLog}, (∀ s, r.mainLog.Holds s → log.lookup s =
        if s ∈ rest then {} else (r.setSlot i {}).mainLog.lookup s) →
        ∀ s, r.mainLog.Holds s → log.lookup s = if s ∈ i :: rest then {} else r.mainLog.lookup s := by
      intro log h s hs
      rw [h s hs, hslot s hs]
      by_cases hmem : s ∈ rest
      · rw [if_pos hmem, if_pos (mem_cons_of_mem i hmem)]
      · rw [if_neg hmem]
        by_cases heq : s = i
        · rw [if_pos heq, if_pos (by rw [heq]; exact mem_cons_self)]
        · rw [if_neg heq, if_neg (by simp [heq, hmem])]
    unfold takePrevViewInfo
    refine meets_get hi ?_
    dsimp only [SeqNumInfo.getAndReset]
    split
    next hpp =>
      refine hih.mono fun p hp => ?_
      obtain ⟨log, hp₁, hbegin, hlog, hp₂⟩ := hp
      refine ⟨log, hp₁, hbegin, hlook hlog, ?_⟩
      rw [hp₂, hsame]
      simp [prevViewInfo, hpp]
    next pp hpp =>
      refine asserts_bind fun _ => asserts_bind fun _ => hih.bind fun p hp => .ok ?_
      obtain ⟨log, hp₁, hbegin, hlog, hp₂⟩ := hp
      refine ⟨log, hp₁, hbegin, hlook hlog, ?_⟩
      simp [prevViewInfo, hpp, hp₂, hsame]

theorem nodup_seqNums (first last : SeqNum) : (seqNums first last).Nodup := by
  unfold seqNums
  exact Nodup.map (fun a b h => by lia) nodup_range

theorem leaveActive_asserts (hw : WellFormed cfg r) (hactive : r.currentViewIsActive = true) :
    Asserts (fun p => ∃ log : MainLog, ∃ vm : ViewsManager,
        p.1 = { r with mainLog := log, viewsManager := vm } ∧
        log.beginningOfActiveWindow = r.mainLog.beginningOfActiveWindow ∧
        (∀ s, r.mainLog.Holds s → log.lookup s = {}) ∧
        p.2.elements = (seqNums (r.lastStableSeqNum + 1)
          (r.lastStableSeqNum + kWorkWindowSize)).filterMap (r.report cfg) ∧
        SortedElements p.2.elements ∧
        ∃ infos, ViewsManager.Leaves cfg r.curView r.lastStableSeqNum infos r.viewsManager (vm, p.2))
      (r.viewChangeMsgForHigherView cfg) := by
  unfold viewChangeMsgForHigherView
  rw [if_pos hactive]
  have hwindow : ∀ i ∈ seqNums (r.lastStableSeqNum + 1) (r.lastStableSeqNum + kWorkWindowSize),
      r.mainLog.Holds i := by
    intro i hi
    obtain ⟨hlo, hhi⟩ := mem_seqNums.1 hi
    exact hw.holds hlo hhi
  refine (takePrevViewInfo_asserts (nodup_seqNums _ _) hwindow).bind fun p hp => ?_
  obtain ⟨r', infos⟩ := p
  obtain ⟨log, hr', hbegin, hlog, hinfos⟩ := hp
  dsimp only at hr' hinfos
  subst hr'
  have hfacts : ∀ it ∈ infos, it.hasAllRequests = true ∧ it.prePrepare.DigestFits cfg := by
    intro it hit
    rw [hinfos] at hit
    obtain ⟨s, hs, hit⟩ := mem_filterMap.1 hit
    obtain ⟨pp, hpp, rfl⟩ := Option.map_eq_some_iff.1 hit
    exact ⟨rfl, hw.fits s pp (hwindow s hs) hpp⟩
  have hview : r.viewsManager.myLatestActiveView = r.curView := by
    have hboth := Bool.and_eq_true_iff.1 hactive
    exact eq_of_beq hboth.2
  refine (exitFromCurrentView_asserts hw.views hw.sorted
    (fun it hit => (hfacts it hit).1) (fun it hit => (hfacts it hit).2) _ _).bind
      fun q hq => .ok ?_
  obtain ⟨vm, m⟩ := q
  refine ⟨log, vm, rfl, hbegin, fun s hs => ?_, ?_, ?_, infos, hq⟩
  · rw [hlog s hs, if_pos]
    obtain ⟨hlo, hhi⟩ := hw.of_holds hs
    exact mem_seqNums.2 ⟨hlo, hhi⟩
  · have hm := congrArg elements hq.msg_eq
    rw [hm, hinfos, hview, filterMap_filterMap]
    rfl
  · have hm := congrArg elements hq.msg_eq
    rw [hm]
    exact sorted_reports hq.sorted

/-- **Leaving the view** for a higher one. -/
theorem MoveToHigherView_does (hfull : M.full) (hw : WellFormed cfg r) (nextView : ViewNum) :
    Does cfg handler env M r (r.MoveToHigherView cfg nextView) := by
  unfold MoveToHigherView
  refine meets_assert hfull fun _ => meets_assert hfull fun hlt => ?_
  have hset : ∀ m : ViewChangeMsg, Asserts (fun m' => m' = { m with newView := nextView })
      (m.setNewViewNumber nextView) := fun m => asserts_bind fun _ => .ok rfl
  cases hactive : r.currentViewIsActive with
  | true =>
    refine (meets_of_asserts hfull (leaveActive_asserts hw hactive)).bind fun p hp => ?_
    obtain ⟨r', m⟩ := p
    obtain ⟨log, vm, hr', hbegin, hempty, helements, hsorted, infos, hleaves⟩ := hp
    subst hr'
    refine (meets_of_asserts hfull (hset m)).bind fun m' hm' => .ok ?_
    subst hm'
    have hstat : vm.stat ≠ .IN_VIEW := by
      rw [hleaves.after.1]
      simp
    obtain ⟨hwf, hstored, hown', hown, hsame⟩ := updateMyLatestViewChangeMsg_spec
      hleaves.wf hstat hlt { m with newView := nextView }
      (congrArg genReplicaId hleaves.msg_eq)
    refine (Effect.leave nextView { m with newView := nextView } _ log hfull ?_).effects
    exact {
      view_lt := hlt
      wf := hwf
      inactive := by
        rw [hsame.stat_eq]
        exact hstat
      stored := by
        intro i vc hvc
        rcases hstored i vc hvc with hvc' | hvc'
        · rcases hleaves.stored i vc hvc' with hold | ⟨rfl, -⟩
          · exact Or.inl hold
          · exact Or.inr ⟨rfl, hown' (hleaves.pending _) vc hvc⟩
        · exact Or.inr hvc'
      own := hown
      within := hsame.within fun hno => absurd (hleaves.after.1.symm.trans hno) (by simp)
      log_begin := hbegin
      log_empty := fun s hs => hempty s (by
        rw [mainLog_holds_iff, hbegin] at hs
        exact mainLog_holds_iff.2 hs)
      sender := congrArg genReplicaId hleaves.msg_eq
      newView_eq := rfl
      reports := by
        have hview : r.viewsManager.myLatestActiveView = r.curView :=
          eq_of_beq (Bool.and_eq_true_iff.1 hactive).2
        unfold Reports
        rw [if_pos hactive]
        refine ⟨congrArg lastStable hleaves.msg_eq, helements, ?_⟩
        rw [← hview]
        exact hleaves.previous
      sorted := hsorted }
  | false =>
    have hstat : r.viewsManager.stat ≠ .IN_VIEW := by
      intro hin
      have hyes : r.currentViewIsActive = true := by
        simp [currentViewIsActive, viewIsActive, inView, hin, hw.views.inView hin]
      exact absurd (hyes.symm.trans hactive) (by simp)
    unfold viewChangeMsgForHigherView
    rw [if_neg (by simp [hactive])]
    split
    next => exact .error (fails_assertion hfull)
    next m hm =>
      refine (meets_of_asserts hfull (hset m)).bind fun m' hm' => .ok ?_
      subst hm'
      obtain ⟨hwf, hstored, -, hown, hsame⟩ := updateMyLatestViewChangeMsg_spec
        hw.views hstat hlt { m with newView := nextView } (hw.own m hm).1
      refine (Effect.leave nextView { m with newView := nextView } _ r.mainLog hfull ?_).effects
      exact {
        view_lt := hlt
        wf := hwf
        inactive := by
          rw [hsame.stat_eq]
          exact hstat
        stored := hstored
        own := hown
        within := hsame.within hw.within
        log_begin := rfl
        log_empty := hw.inactive hactive
        sender := (hw.own m hm).1
        newView_eq := rfl
        reports := by
          unfold Reports
          rw [if_neg (by simp [hactive])]
          exact ⟨m, hm, rfl, rfl⟩
        sorted := (hw.own m hm).2 }

/-! ## Entering a view -/

/-- What is recorded about one PrePrepare of the new view. -/
def ActionOn (v : ViewNum) (pp : PrePrepareMsg) (a : Action) : Prop :=
  a = .accept v pp.seqNumber pp.digestOfRequests ∨
  a = .sign .prepare v pp.seqNumber pp.digestOfRequests ∨
  ∃ dest p, a = .send dest (.preparePartial p)

/-- One slot takes a PrePrepare of the new view. -/
structure TakesSlot (cfg : ReplicaConfig) (r : ReplicaImp App) (pp : PrePrepareMsg)
    (log : MainLog) (new : List Action) : Prop where
  begin_eq : log.beginningOfActiveWindow = r.mainLog.beginningOfActiveWindow
  pp_eq : (log.lookup pp.seqNumber).prePrepareMsg = some pp
  inv : (log.lookup pp.seqNumber).Inv cfg r.curView pp.seqNumber
  others : ∀ s, r.mainLog.Holds s → s ≠ pp.seqNumber → log.lookup s = r.mainLog.lookup s
  actions : ∀ a ∈ new, ActionOn r.curView pp a
  accept : .accept r.curView pp.seqNumber pp.digestOfRequests ∈ new

/-- After the slot has taken the PrePrepare, the own share may be added. -/
theorem Prepared.takesSlot {pp : PrePrepareMsg} {info : SeqNumInfo}
    (hs : r.mainLog.Holds pp.seqNumber) (hpp : info.prePrepareMsg = some pp)
    (hinv : info.Inv cfg r.curView pp.seqNumber)
    (h : Prepared cfg ((r.setSlot pp.seqNumber info).record
      (.accept r.curView pp.seqNumber pp.digestOfRequests)) pp.seqNumber r₁) :
    ∃ log new, r₁ = { r with mainLog := log, trace := new ++ r.trace } ∧
      TakesSlot cfg r pp log new := by
  have hlook : ∀ log : MainLog, log.beginningOfActiveWindow = r.mainLog.beginningOfActiveWindow →
      ∀ s, r.mainLog.Holds s → log.Holds s := by
    intro log hbegin s hs
    rw [mainLog_holds_iff, hbegin]
    exact mainLog_holds_iff.1 hs
  have hself : (r.mainLog.set pp.seqNumber info).lookup pp.seqNumber = info := lookup_set_self _ _ _
  cases h with
  | nothing =>
    refine ⟨r.mainLog.set pp.seqNumber info, [_], rfl, rfl, ?_, ?_, ?_, ?_, mem_singleton.2 rfl⟩
    · rw [hself, hpp]
    · rw [hself]
      exact hinv
    · intro s hs' hne
      rw [lookup_set hs hs', if_neg hne]
    · intro a ha
      exact Or.inl (mem_singleton.1 ha)
  | share info' pp' sends hpp' hinv' hkeeps _ hsends =>
    have heq : pp' = pp := by
      change ((r.mainLog.set pp.seqNumber info).lookup pp.seqNumber).prePrepareMsg = some pp' at hpp'
      rw [hself, hpp] at hpp'
      exact (Option.some.inj hpp').symm
    subst heq
    refine ⟨(r.mainLog.set pp'.seqNumber info).set pp'.seqNumber info',
      sends ++ [.sign .prepare r.curView pp'.seqNumber pp'.digestOfRequests,
        .accept r.curView pp'.seqNumber pp'.digestOfRequests], ?_, rfl, ?_, ?_, ?_, ?_, by simp⟩
    · simp [ReplicaImp.setSlot, record]
    · rw [lookup_set_self]
      exact hkeeps.pp_eq.trans hpp'
    · rw [lookup_set_self]
      exact hinv'
    · intro s hs' hne
      have hset := hlook (r.mainLog.set pp'.seqNumber info) rfl
      rw [lookup_set (hset _ hs) (hset s hs'), if_neg hne, lookup_set hs hs', if_neg hne]
    · intro a ha
      rcases mem_append.1 ha with ha | ha
      · exact Or.inr (Or.inr (hsends a ha))
      · rcases mem_cons.1 ha with ha | ha
        · exact Or.inr (Or.inl ha)
        · exact Or.inl (mem_singleton.1 ha)

theorem addPrePrepareOfNewView_asserts {first last : SeqNum} {pp : PrePrepareMsg}
    (hactive : r.currentViewIsActive = true) (hs : r.mainLog.Holds pp.seqNumber)
    (hne : pp.seqNumber ≠ 0) (hview : pp.viewNumber = r.curView)
    (hinv : (r.mainLog.lookup pp.seqNumber).Inv cfg r.curView pp.seqNumber)
    (hnone : (r.mainLog.lookup pp.seqNumber).prePrepareMsg = none) :
    Asserts (fun r₁ => ∃ log new, r₁ = { r with mainLog := log, trace := new ++ r.trace } ∧
        TakesSlot cfg r pp log new)
      (addPrePrepareOfNewView cfg first last r pp) := by
  unfold addPrePrepareOfNewView
  refine asserts_bind fun _ => asserts_bind fun _ => asserts_bind fun _ => ?_
  refine meets_get hs ?_
  have hadded : ∃ info, (if r.isCurrentPrimary cfg then do
        let info ← (r.mainLog.lookup pp.seqNumber).addSelfPrePrepare cfg pp
        pure (info, true)
      else (r.mainLog.lookup pp.seqNumber).addPrePrepare cfg pp) = .ok (info, true) ∧
      info.Inv cfg r.curView pp.seqNumber ∧ info.prePrepareMsg = some pp := by
    split_ifs with hprimary
    · have hme : cfg.myId = cfg.primaryOfView r.curView := (eq_of_beq hprimary).symm
      obtain ⟨info, hinfo, hinv', hpp, -⟩ :=
        SeqNumInfo.addSelfPrePrepare_spec hinv hnone hview rfl hne hme
      rw [hinfo]
      exact ⟨info, rfl, hinv', hpp⟩
    · rcases SeqNumInfo.addPrePrepare_spec hinv hview rfl hne with ⟨m', hm', -⟩ | ⟨-, hadd⟩
      · exact absurd (hnone.symm.trans hm') (by simp)
      · obtain ⟨info, hinfo, hinv', hpp, -⟩ := hadd
        exact ⟨info, hinfo, hinv', hpp⟩
  obtain ⟨info, hinfo, hinv', hpp⟩ := hadded
  refine meets_ok_bind hinfo ?_
  have hslot : ((r.mainLog.set pp.seqNumber info.startSlowPath).lookup pp.seqNumber).Inv cfg
      r.curView pp.seqNumber := by
    rw [lookup_set_self]
    exact hinv'.startSlowPath
  obtain ⟨r₁, heq, hprep⟩ : ∃ r₁, ((r.setSlot pp.seqNumber info.startSlowPath).record
      (.accept r.curView pp.seqNumber pp.digestOfRequests)).sendPreparePartial cfg pp.seqNumber =
        .ok r₁ ∧ Prepared cfg ((r.setSlot pp.seqNumber info.startSlowPath).record
      (.accept r.curView pp.seqNumber pp.digestOfRequests)) pp.seqNumber r₁ :=
    sendPreparePartial_spec hactive hslot
  have hpp' : info.startSlowPath.prePrepareMsg = some pp := hpp
  exact meets_of_eq_ok heq (hprep.takesSlot hs hpp' hinv'.startSlowPath)

/-- The state after some of the PrePrepares of the new view have been taken. -/
structure Taken (cfg : ReplicaConfig) (r : ReplicaImp App) (done : List PrePrepareMsg)
    (log : MainLog) (new : List Action) : Prop where
  begin_eq : log.beginningOfActiveWindow = r.mainLog.beginningOfActiveWindow
  slots : ∀ s, r.mainLog.Holds s →
    (∃ pp ∈ done, pp.seqNumber = s ∧ (log.lookup s).prePrepareMsg = some pp ∧
      (log.lookup s).Inv cfg r.curView s) ∨
    ((∀ pp ∈ done, pp.seqNumber ≠ s) ∧ log.lookup s = r.mainLog.lookup s)
  actions : ∀ a ∈ new, ∃ pp ∈ done, ActionOn r.curView pp a
  accepts : ∀ pp ∈ done, .accept r.curView pp.seqNumber pp.digestOfRequests ∈ new

theorem Taken.tail {done : List PrePrepareMsg} {log log' : MainLog} {new new' : List Action}
    {pp : PrePrepareMsg} (h : Taken cfg r done log new)
    (h' : TakesSlot cfg { r with mainLog := log, trace := new ++ r.trace } pp log' new') :
    Taken cfg r (done ++ [pp]) log' (new' ++ new) := by
  have hholds : ∀ s, r.mainLog.Holds s → log.Holds s := by
    intro s hs
    rw [mainLog_holds_iff, h.begin_eq]
    exact mainLog_holds_iff.1 hs
  refine ⟨h'.begin_eq.trans h.begin_eq, fun s hs => ?_, fun a ha => ?_, fun pp' hpp' => ?_⟩
  · by_cases hsame : s = pp.seqNumber
    · subst hsame
      exact Or.inl ⟨pp, by simp, rfl, h'.pp_eq, h'.inv⟩
    · have hlook : log'.lookup s = log.lookup s := h'.others s (hholds s hs) hsame
      rw [hlook]
      rcases h.slots s hs with ⟨pp', hmem, hslot⟩ | ⟨hnot, hlook'⟩
      · exact Or.inl ⟨pp', mem_append_left _ hmem, hslot⟩
      · refine Or.inr ⟨fun pp' hpp' => ?_, hlook'⟩
        rcases mem_append.1 hpp' with hmem | hmem
        · exact hnot pp' hmem
        · rw [mem_singleton.1 hmem]
          exact fun heq => hsame heq.symm
  · rcases mem_append.1 ha with ha | ha
    · exact ⟨pp, by simp, h'.actions a ha⟩
    · obtain ⟨pp', hmem, hact⟩ := h.actions a ha
      exact ⟨pp', mem_append_left _ hmem, hact⟩
  · rcases mem_append.1 hpp' with hmem | hmem
    · exact mem_append_right _ (h.accepts pp' hmem)
    · rw [mem_singleton.1 hmem]
      exact mem_append_left _ h'.accept

/-- The loop of `onNewView`. -/
theorem takePrePrepares_asserts {pps : List PrePrepareMsg} {first last : SeqNum}
    (hactive : r.currentViewIsActive = true) (hnodup : (pps.map (·.seqNumber)).Nodup)
    (hempty : ∀ s, r.mainLog.Holds s → r.mainLog.lookup s = {})
    (hpps : ∀ pp ∈ pps, r.mainLog.Holds pp.seqNumber ∧ pp.seqNumber ≠ 0 ∧
      pp.viewNumber = r.curView) :
    Asserts (fun r₁ => ∃ log new, r₁ = { r with mainLog := log, trace := new ++ r.trace } ∧
        Taken cfg r pps log new)
      (pps.foldlM (addPrePrepareOfNewView cfg first last) r) := by
  refine meets_foldlM (fun done r₁ => ∃ log new,
    r₁ = { r with mainLog := log, trace := new ++ r.trace } ∧ Taken cfg r done log new)
    ⟨r.mainLog, [], rfl, rfl, fun s _ => Or.inr ⟨by simp, rfl⟩, by simp, by simp⟩ ?_
  intro done pp rest r₁ happ hI
  obtain ⟨log, new, rfl, htaken⟩ := hI
  obtain ⟨hholds, hne, hview⟩ := hpps pp (by rw [happ]; simp)
  -- the slot is still empty, since no other PrePrepare has its number
  have hfresh : log.lookup pp.seqNumber = {} := by
    rcases htaken.slots pp.seqNumber hholds with ⟨pp', hmem, hseq, -⟩ | ⟨-, hlook⟩
    · rw [happ, map_append, nodup_append] at hnodup
      exact absurd hseq (hnodup.2.2 _ (mem_map_of_mem hmem) _ (by simp))
    · rw [hlook, hempty pp.seqNumber hholds]
  have hholds' : log.Holds pp.seqNumber := by
    rw [mainLog_holds_iff, htaken.begin_eq]
    exact mainLog_holds_iff.1 hholds
  refine Asserts.mono (addPrePrepareOfNewView_asserts hactive hholds' hne hview ?_ ?_) ?_
  · show (log.lookup pp.seqNumber).Inv cfg r.curView pp.seqNumber
    rw [hfresh]
    exact SeqNumInfo.inv_empty
  · show (log.lookup pp.seqNumber).prePrepareMsg = none
    rw [hfresh]
  · rintro r₂ ⟨log', new', rfl, htakes⟩
    exact ⟨log', new' ++ new, by simp, htaken.tail htakes⟩

theorem sendNewViewMsg_asserts : Asserts (fun r₁ => ∃ new,
      r₁ = { r with trace := new ++ r.trace } ∧
      ∀ a ∈ new, ∃ nv, a = .sendToAllOtherReplicas (.newView nv)) (r.sendNewViewMsg cfg) := by
  unfold sendNewViewMsg
  refine asserts_ite (fun _ => ?_) fun _ => .ok ⟨[], rfl, by simp⟩
  refine getMyNewViewMsgForCurrentView_asserts.bind fun nv _ =>
    asserts_bind fun _ => .ok ⟨[_], rfl, ?_⟩
  intro a ha
  exact ⟨nv, mem_singleton.1 ha⟩

/-- The counters of the new view are all that changes when they are set. -/
theorem setCountersOfNewView_eq (pps : List PrePrepareMsg) :
    ∃ used strict transferred, ∀ r₁ : ReplicaImp App, r₁.lastStableSeqNum = r.lastStableSeqNum →
      r₁.setCountersOfNewView pps = { r₁ with
        primaryLastUsedSeqNum := used
        strictLowerBoundOfSeqNums := strict
        maxSeqNumTransferredFromPrevViews := transferred } := by
  by_cases hempty : pps.isEmpty = true
  · refine ⟨r.lastStableSeqNum, r.lastStableSeqNum, r.lastStableSeqNum, fun r₁ hr₁ => ?_⟩
    rw [setCountersOfNewView, if_pos hempty, hr₁]
  · refine ⟨lastPPSeq pps, firstPPSeq pps - 1, lastPPSeq pps, fun r₁ _ => ?_⟩
    rw [setCountersOfNewView, if_neg hempty]

/-- **Entering the view**, once the manager has the PrePrepares for it. -/
theorem onNewView_asserts (hw : WellFormed cfg r) {vm : ViewsManager} {pps : List PrePrepareMsg}
    (h : ViewsManager.Enters cfg r.curView r.lastStableSeqNum r.viewsManager vm pps) :
    Asserts (fun r₁ => ∃ log new, r₁ = r.enterWith vm pps log new ∧ Entered cfg r vm pps log new)
      (({ r with viewsManager := vm }.record (.enterView r.curView
        ((List.range cfg.numberOfReplicas).map vm.viewChangeMsgsOfPendingView)
        vm.lowerBoundStableForPendingView r.lastStableSeqNum)).onNewView cfg pps) := by
  obtain ⟨last, -, hlo, hhi, hnumbers, -⟩ := counters_of_entry h
  have hinactive : r.currentViewIsActive = false :=
    viewIsActive_eq_false h.before.1 r.curView
  obtain ⟨used, strict, transferred, hset⟩ := r.setCountersOfNewView_eq pps
  unfold onNewView
  refine asserts_bind fun hactive => asserts_bind fun _ => asserts_bind fun _ => ?_
  refine sendNewViewMsg_asserts.bind fun r₁ hr₁ => ?_
  obtain ⟨sent, hr₁, hsent⟩ := hr₁
  have hcounters := hset r₁ (by rw [hr₁]; rfl)
  rw [hcounters]
  refine (takePrePrepares_asserts ?_ ?_ ?_ ?_).bind fun r₂ hr₂ => .ok ?_
  · rw [hr₁]
    exact hactive
  · rw [hnumbers]
    exact nodup_seqNums _ _
  · rw [hr₁]
    exact hw.inactive hinactive
  · intro pp hpp
    obtain ⟨hge, hle⟩ := number_of_mem hnumbers hpp
    have hpos := hw.stable_nonneg
    rw [hr₁]
    exact ⟨hw.holds (by lia) (by lia), by lia, (h.prePrepares pp hpp).view_eq⟩
  · obtain ⟨log, new, rfl, htaken⟩ := hr₂
    subst hr₁
    refine ⟨log, new ++ (sent ++ [.enterView r.curView
        ((range cfg.numberOfReplicas).map vm.viewChangeMsgsOfPendingView)
        vm.lowerBoundStableForPendingView r.lastStableSeqNum]), ?_, h, htaken.begin_eq,
      htaken.slots, ?_, by simp, ?_⟩
    · simp [enterWith, hset, record]
    · intro a ha
      rcases mem_append.1 ha with ha | ha
      · obtain ⟨pp, hpp, rfl | rfl | ⟨dest, p, rfl⟩⟩ := htaken.actions a ha
        · exact .accept pp hpp
        · exact .sign pp hpp
        · exact .send dest p
      · rcases mem_append.1 ha with ha | ha
        · obtain ⟨nv, rfl⟩ := hsent a ha
          exact .newView nv
        · rw [mem_singleton.1 ha]
          exact .enterView
    · intro pp hpp
      exact mem_append_left _ (htaken.accepts pp hpp)

/-- If the manager lets the replica enter its view now, then the scope allows that. -/
def MayEnter (cfg : ReplicaConfig) (M : Scope App) (r : ReplicaImp App) : Prop :=
  ∀ vm pps, r.viewsManager.tryToEnterView cfg r.curView r.lastStableSeqNum
    r.lastExecutedSeqNum = .ok (vm, some pps) → M.enters r vm

theorem tryToEnterView_does (hfull : M.full) (hw : WellFormed cfg r) (henters : MayEnter cfg M r) :
    Does cfg handler env M r (r.tryToEnterView cfg env) := by
  unfold tryToEnterView
  refine meets_assert hfull fun _ => ?_
  refine (meets_of_asserts hfull (tryToEnterView_asserts hw.views
    r.lastStableSeqNum r.lastExecutedSeqNum)).bind_eq fun p hp htries => ?_
  obtain ⟨vm, pps⟩ := p
  cases pps with
  | none =>
    obtain ⟨hwf, hquiet, -, hwithin⟩ := htries
    have hviews : Effects cfg handler M r { r with viewsManager := vm } := by
      refine (Effect.views vm hfull hwf ⟨fun i vc hvc => ?_, hquiet.own, hquiet.active⟩
        (hwithin hw.within)).effects
      exact Or.inl ((hquiet.stored i vc hvc).resolve_right fun hno => hno.1)
    exact Does.after hviews (tryToSendStatusReport_sends (hviews.wellFormed hw)).does
  | some pps =>
    refine Meets.mono (meets_of_asserts hfull (onNewView_asserts hw htries)) ?_
    rintro r₁ ⟨log, new, rfl, hentered⟩
    exact (Effect.enter vm pps log new hfull (henters vm pps hp) hentered).effects

/-! ## Messages of the view change -/

/-- The first part of a handler returns a state and whether the view may now be entered. -/
theorem enters_does (hfull : M.full) (hw : WellFormed cfg r)
    {x : Except Failure (ReplicaImp App × Bool)}
    (hx : Meets (Fails cfg handler env M r) (fun p => Effects cfg handler M r p.1) x)
    (henters : ∀ r₁, x = .ok (r₁, true) → MayEnter cfg M r₁) :
    Does cfg handler env M r (do
      let (r, enters) ← x
      if enters then r.tryToEnterView cfg env else pure r) := by
  refine hx.bind_eq fun p hp he => ?_
  obtain ⟨r₁, enters⟩ := p
  refine Does.after he (does_ite (fun hyes => ?_) fun _ => does_refl r₁)
  subst hyes
  exact tryToEnterView_does hfull (he.wellFormed hw) (henters r₁ hp)

/-- A change of the manager that keeps what the replica relies on. -/
theorem meets_views (hfull : M.full) (hw : WellFormed cfg r) {α : Type}
    {x : Except Failure (ViewsManager × α)}
    (h : Asserts (fun p => p.1.Wf cfg r.curView ∧
      ViewsManager.Quiet cfg M.receives r.viewsManager p.1 ∧ r.viewsManager.SameViews p.1) x) :
    Meets (Fails cfg handler env M r)
      (fun p => Effects cfg handler M r { r with viewsManager := p.1 }) x := by
  refine Meets.mono (meets_of_asserts hfull h) fun p hp => ?_
  obtain ⟨hwf, hquiet, hsame⟩ := hp
  exact (Effect.views p.1 hfull hwf hquiet (hsame.within hw.within)).effects

section

variable (hfull : M.full) (hw : WellFormed cfg r)
include hfull hw

theorem addViewChangeMsg_meets {msg : ViewChangeMsg} (hmsg : M.receives msg) :
    Meets (Fails cfg handler env M r) (fun p => Effects cfg handler M r p.1)
      (r.addViewChangeMsg cfg msg) := by
  unfold addViewChangeMsg
  refine meets_assert hfull fun _ => ?_
  refine (meets_views hfull hw (addViewChange_asserts hw.views _ hmsg)).bind fun p he => ?_
  refine meets_ite (fun _ => .ok he) fun _ => ?_
  have hmove : ∀ {c : Prop} {_ : Decidable c} (r₁ : ReplicaImp App) (v : ViewNum),
      Effects cfg handler M r r₁ →
      Meets (Fails cfg handler env M r) (Effects cfg handler M r)
        (if c then r₁.MoveToHigherView cfg v else pure r₁) := by
    intro c _ r₁ v he₁
    refine meets_ite (fun _ => ?_) fun _ => .ok he₁
    exact Does.after he₁ (MoveToHigherView_does hfull (he₁.wellFormed hw) v)
  refine (hmove _ _ he).bind fun r₁ he₁ => (hmove r₁ _ he₁).bind fun r₂ he₂ => ?_
  refine meets_ite (fun _ => .ok he₂) fun _ => .ok (he₂.trans ?_)
  exact .bookkeeping rfl (fun _ hm => Or.inl hm) (Or.inr rfl)

theorem onViewChangeMsg_does {msg : ViewChangeMsg} (hmsg : M.receives msg)
    (henters : ∀ r₁, r.addViewChangeMsg cfg msg = .ok (r₁, true) → MayEnter cfg M r₁) :
    Does cfg handler env M r (r.onViewChangeMsg cfg env msg) :=
  does_skip fun _ =>
    enters_does hfull hw (addViewChangeMsg_meets hfull hw hmsg) henters

theorem onNewViewMsg_does {msg : NewViewMsg}
    (henters : ∀ r₁, r.addNewViewMsg cfg msg = .ok (r₁, true) → MayEnter cfg M r₁) :
    Does cfg handler env M r (r.onNewViewMsg cfg env msg) := by
  refine does_skip fun _ => enters_does hfull hw ?_ henters
  unfold addNewViewMsg
  refine meets_assert hfull fun _ => ?_
  exact (meets_views hfull hw (addNewView_asserts hw.views M.receives msg)).bind
    fun p he => .ok he

theorem onMissingPrePrepare_does {msg : PrePrepareMsg} (hfits : msg.DigestFits cfg)
    (henters : ∀ r₁, r.addMissingPrePrepare msg = .ok (r₁, true) → MayEnter cfg M r₁) :
    Does cfg handler env M r (r.onMissingPrePrepare cfg env msg) := by
  refine enters_does hfull hw ?_ henters
  unfold addMissingPrePrepare
  refine meets_assert hfull fun _ => ?_
  exact (meets_views hfull hw (addPotentiallyMissingPP_asserts hw.views M.receives
    hfits)).bind fun p he => .ok he

theorem onViewsChangeTimer_does : Does cfg handler env M r (r.onViewsChangeTimer cfg env) := by
  unfold onViewsChangeTimer
  have hnext : Does cfg handler env M r (r.GotoNextView cfg) :=
    MoveToHigherView_does hfull hw (r.curView + 1)
  refine meets_assert hfull fun _ => does_skip fun _ => ?_
  refine does_ite (fun _ => does_skip fun _ => hnext) fun _ => ?_
  exact does_skip fun _ => hnext

end

/-! ## Completed state transfers -/

theorem hasOwnCheckpoint_eq (hmod : n % checkpointWindowSize = 0) :
    ∃ b, r.hasOwnCheckpoint cfg n = .ok b := by
  unfold hasOwnCheckpoint
  split_ifs with h
  · rw [get_eq ⟨hmod, h⟩]
    exact ⟨_, rfl⟩
  · exact ⟨false, rfl⟩

theorem catchUpWithStable_adopt (cm : ClientsManager) :
    (r.adopt n cm).catchUpWithStable cfg (n - kWorkWindowSize) = .ok (r.adopt n cm) := by
  refine catchUpWithStable_eq ?_
  show n - kWorkWindowSize ≤ n
  unfold kWorkWindowSize
  lia

/-- The windows move behind the checkpoint `n` if it is above them. -/
theorem moveWindowsTo_above (hfull : M.full) (hn : M.transfers n) (hw : WellFormed cfg r)
    (hmod : n % checkpointWindowSize = 0) (hlt : r.lastExecutedSeqNum < n) {cm : ClientsManager}
    (hcm : r.execution.clientsManager.loadInfoFromReservedPages cfg = .ok cm)
    (hgt : r.lastStableSeqNum + kWorkWindowSize < n) :
    ∃ b log cps, r.hasOwnCheckpoint cfg (n - kWorkWindowSize) = .ok b ∧
      Effect cfg handler M r ((r.adopt n cm).advanceTo (n - kWorkWindowSize) log cps) ∧
      (r.adopt n cm).moveWindowsTo cfg env n =
        if b then ((r.adopt n cm).advanceTo (n - kWorkWindowSize) log cps).onStablePointMoved cfg env
        else .ok ((r.adopt n cm).advanceTo (n - kWorkWindowSize) log cps) := by
  have hmod' : (n - kWorkWindowSize) % checkpointWindowSize = 0 := by
    unfold kWorkWindowSize checkpointWindowSize at *
    lia
  have hnot : ¬ n - kWorkWindowSize ≤ (r.adopt n cm).lastStableSeqNum := by
    show ¬ n - kWorkWindowSize ≤ r.lastStableSeqNum
    lia
  obtain ⟨log, cps, hadv, hadvanced⟩ : ∃ log cps, (r.adopt n cm).advanceStable
      (n - kWorkWindowSize) = .ok ((r.adopt n cm).advanceTo (n - kWorkWindowSize) log cps) ∧
      Advanced (r.adopt n cm) (n - kWorkWindowSize) log cps :=
    advanceStable_spec hw.mainLog_begin hw.checkpointsLog_begin hw.stable_mod hmod'
      (le_of_lt (not_le.1 hnot))
  obtain ⟨b, hb⟩ : ∃ b, (r.adopt n cm).hasOwnCheckpoint cfg (n - kWorkWindowSize) = .ok b :=
    hasOwnCheckpoint_eq hmod'
  refine ⟨b, log, cps, hb, .jump n cm log cps hfull hn hmod hlt hcm hgt hadvanced, ?_⟩
  unfold moveWindowsTo onSeqNumIsStable onSeqNumIsStableWithoutRefCheckpoint
  rw [if_pos (show (r.adopt n cm).lastStableSeqNum + kWorkWindowSize < n from hgt)]
  dsimp only
  rw [hb, ok_bind, assert_bind_of hmod', assert_bind_of hmod', if_neg hnot, if_neg hnot,
    catchUpWithStable_adopt, ok_bind, hadv]
  rfl

/-- The state of checkpoint `n` is adopted, and the windows move if they have to. -/
theorem moveWindowsTo_meets (hfull : M.full) (hM : M.moves) (hw : WellFormed cfg r)
    (hn : M.transfers n) (hmod : n % checkpointWindowSize = 0) (hlt : r.lastExecutedSeqNum < n)
    {cm : ClientsManager} (hcm : r.execution.clientsManager.loadInfoFromReservedPages cfg = .ok cm) :
    Meets (Fails cfg handler env M r)
      (fun r' => Effects cfg handler M r r' ∧ r'.lastExecutedSeqNum = n)
      ((r.adopt n cm).moveWindowsTo cfg env n) := by
  by_cases hgt : r.lastStableSeqNum + kWorkWindowSize < n
  · obtain ⟨b, log, cps, -, hjump, heq⟩ : ∃ b log cps, _ ∧ Effect cfg handler M r
        ((r.adopt n cm).advanceTo (n - kWorkWindowSize) log cps) ∧ _ :=
      moveWindowsTo_above hfull hn hw hmod hlt hcm hgt
    rw [heq]
    refine meets_ite (fun _ => ?_) fun _ => .ok ⟨hjump.effects, rfl⟩
    refine meets_after hjump.effects
      ((onStablePointMoved_does hM (hjump.wellFormed hw)).mono fun r' hr' => ?_)
    exact ⟨hjump.effects.trans hr'.1, hr'.2.2.1⟩
  · rw [show (r.adopt n cm).moveWindowsTo cfg env n = .ok (r.adopt n cm) from if_neg hgt]
    exact .ok ⟨(Effect.transfer n cm hfull hn hlt hcm (not_lt.1 hgt)).effects, rfl⟩

theorem loadInfoFromReservedPages_asserts (cm : ClientsManager) :
    Asserts (fun _ => True) (cm.loadInfoFromReservedPages cfg) :=
  asserts_bind fun _ => .ok trivial

/-- **A new state is adopted.** -/
theorem adoptNewState_meets (hfull : M.full) (hM : M.moves) (hw : WellFormed cfg r)
    (hn : M.transfers n) (hmod : n % checkpointWindowSize = 0) (hlt : r.lastExecutedSeqNum < n) :
    Meets (Fails cfg handler env M r)
      (fun r' => Effects cfg handler M r r' ∧ r'.lastExecutedSeqNum = n)
      (r.adoptNewState cfg env n) := by
  unfold adoptNewState
  refine (meets_of_asserts hfull (loadInfoFromReservedPages_asserts _)).bind_eq fun cm hcm _ => ?_
  refine (moveWindowsTo_meets hfull hM hw hn hmod hlt hcm).bind fun r₁ hr₁ => ?_
  obtain ⟨he, hexec⟩ := hr₁
  have hw₁ := he.wellFormed hw
  have hholds : r₁.checkpointsLog.Holds n := by
    refine hw₁.holds_checkpoint hmod ?_ ?_
    · rw [← hexec]
      exact hw₁.stable_le
    · rw [← hexec]
      exact hw₁.exec_le
  refine meets_get hholds (.ok ⟨?_, hexec⟩)
  have hset : ∀ info m, Effects cfg handler M r₁
      ((r₁.setCheckpoint n info).sendToAllOtherReplicas (.checkpoint m)) := fun info m =>
    (setCheckpoint_effects hM hholds (le_of_eq hexec.symm) info).tail (.record _ trivial)
  exact he.trans (hset _ _)

theorem checkTableOfStableCheckpoints_meets (hM : M.moves) (hw : WellFormed cfg r)
    (hmod : n % checkpointWindowSize = 0) (hle : n ≤ r.lastExecutedSeqNum) :
    Meets (Fails cfg handler env M r)
      (fun p => Effects cfg handler M r p.1 ∧ p.1.lastExecutedSeqNum = r.lastExecutedSeqNum)
      (r.checkTableOfStableCheckpoints cfg env n) := by
  unfold checkTableOfStableCheckpoints
  refine meets_ite (fun _ => .ok ⟨Effects.refl r, rfl⟩) fun _ => ?_
  have htable : Effects cfg handler M r { r with
      tableOfStableCheckpoints := r.tableOfStableCheckpoints.filter fun e =>
        decide (r.lastExecutedSeqNum < e.2.seqNumber) } :=
    .bookkeeping rfl (fun _ hm => Or.inl hm) (Or.inr rfl)
  have hstable : ∀ r₁, Effects cfg handler M r r₁ →
      r₁.lastExecutedSeqNum = r.lastExecutedSeqNum →
      Meets (Fails cfg handler env M r) (fun r₂ => Effects cfg handler M r r₂ ∧
        r₂.lastExecutedSeqNum = r.lastExecutedSeqNum) (r₁.onSeqNumIsStable cfg env n) := by
    intro r₁ he hexec
    refine meets_after he ((onSeqNumIsStable_does hM (he.wellFormed hw) hmod
      (by rw [hexec]; exact hle)).mono fun r₂ hr₂ => ?_)
    exact ⟨he.trans hr₂.1, hr₂.2.2.1.trans hexec⟩
  exact (meets_ite (fun _ => hstable _ htable rfl) fun _ => .ok ⟨htable, rfl⟩).bind
    fun r₁ hr₁ => .ok hr₁

/-- The part of `onTransferringCompleteImp` before requests are executed. -/
theorem takeNewState_meets (hfull : M.full) (hM : M.moves) (hw : WellFormed cfg r)
    (hn : M.transfers n) :
    Meets (Fails cfg handler env M r)
      (fun p => Effects cfg handler M r p.1 ∧ n ≤ p.1.primaryLastUsedSeqNum ∧
        p.1.lastExecutedSeqNum = max r.lastExecutedSeqNum n)
      (r.takeNewState cfg env n) := by
  unfold takeNewState
  refine meets_assert hfull fun hmod => ?_
  have hadopt : r.lastExecutedSeqNum < n → Meets (Fails cfg handler env M r)
      (fun r₁ => Effects cfg handler M r r₁ ∧ r₁.lastExecutedSeqNum = max r.lastExecutedSeqNum n)
      (r.adoptNewState cfg env n) := fun hlt =>
    (adoptNewState_meets hfull hM hw hn hmod hlt).mono fun r₁ hr₁ =>
      ⟨hr₁.1, hr₁.2.trans (max_eq_right (le_of_lt hlt)).symm⟩
  refine (meets_ite hadopt fun hge => .ok ⟨Effects.refl r,
    (max_eq_left (not_lt.1 hge)).symm⟩).bind fun r₁ hr₁ => ?_
  obtain ⟨he, hlast⟩ := hr₁
  have hle : n ≤ r₁.lastExecutedSeqNum := by
    rw [hlast]
    simp
  refine meets_after he ((checkTableOfStableCheckpoints_meets hM (he.wellFormed hw) hmod hle).bind
    fun p hp => .ok ?_)
  obtain ⟨he', hexec⟩ := hp
  have hw' := (he.trans he').wellFormed hw
  refine ⟨(he.trans he').tail (.use _ (le_max_left _ _) ?_), le_max_right _ _,
    hexec.trans hlast⟩
  have hused := hw'.used_le
  have hexec' := hw'.exec_le
  lia

theorem executeAfterTransfer_does (hM : M.moves) (hexec : M.executes)
    (hw : WellFormed cfg r) : Does cfg handler env M r (r.executeAfterTransfer cfg handler env) := by
  unfold executeAfterTransfer
  refine does_ite (fun h => ?_) fun _ => does_refl r
  have hle : Scope.Le Scope.executing M := Scope.executing_le hM hexec
  refine ((executeReadWriteRequests_meets hw h.1 h.2 false).weaken fun _ => Fails.mono hle).bind
    fun r₁ hr₁ => ?_
  have he := hr₁.1.mono hle
  refine Does.after he (does_ite (fun hprimary => ?_) fun _ => does_refl r₁)
  have hactive : r₁.currentViewIsActive = true := (hr₁.1.sameView id).active.trans h.1
  exact tryToSendPrePrepareMsg_does (he.wellFormed hw) hactive hprimary.1 false

theorem onTransferringCompleteImp_does (hfull : M.full) (hM : M.moves) (hexec : M.executes)
    (hw : WellFormed cfg r) (hn : M.transfers n) :
    Does cfg handler env M r (r.onTransferringCompleteImp cfg handler env n) := by
  unfold onTransferringCompleteImp
  refine (takeNewState_meets hfull hM hw hn).bind fun p hp => ?_
  have he := hp.1
  refine Does.after he ((executeAfterTransfer_does hM hexec (he.wellFormed hw)).bind
    fun r₁ he₁ => does_pure ?_)
  split
  · exact .bookkeeping rfl (fun _ hm => Or.inl hm) (Or.inl hfull)
  · exact Effects.refl r₁

end ConcordBft.ReplicaImp
