import ConcordBft.BackgroundJobs.Collectors
import ConcordBft.ReplicaImp.Runs

set_option autoImplicit false

/-! # The jobs of a run

The invariant of a run ties the thread pool to the slots. A job of an older view can never meet its
collector again, because views are left for good; a job for a number below the window neither, because
the window only moves up. A job for a number of the window in the current view is the running job of
its collector. So the checks of the handlers let through exactly the results that their collector
waits for. -/

namespace ConcordBft

open Checked SequenceWithActiveWindow CollectorOfThresholdSignatures BackgroundJob SeqNumInfo List

namespace BackgroundJob

/-- What tells apart the jobs of a run. -/
def key (J : BackgroundJob) : Stage × SeqNum × ViewNum := (J.stage, J.seqNumber, J.view)

end BackgroundJob

/-! ## Jobs that a call starts -/

variable {J : BackgroundJob}

theorem mem_startedJobs {info info' : SeqNumInfo} (h : J ∈ startedJobs info info') :
    (info.collector J.stage).job = none ∧ (info'.collector J.stage).job = some J.job ∧
      (info'.collector J.stage).expectedSeqNumber = J.seqNumber ∧
      (info'.collector J.stage).expectedView = J.view := by
  obtain ⟨stage, -, hstage⟩ := mem_filterMap.1 h
  by_cases hsome : (info.collector stage).job.isSome = true
  · rw [if_pos hsome] at hstage
    simp at hstage
  rw [if_neg hsome] at hstage
  obtain ⟨j, hj, rfl⟩ := Option.map_eq_some_iff.1 hstage
  exact ⟨by simpa using hsome, hj, rfl, rfl⟩

theorem nodup_startedJobs (info info' : SeqNumInfo) :
    ((startedJobs info info').map (·.key)).Nodup := by
  apply Nodup.of_map Prod.fst
  rw [map_map]
  -- at most one job for each stage
  have hstages : (startedJobs info info').map (Prod.fst ∘ (·.key)) =
      [Stage.prepare, Stage.commit].filter fun stage =>
        !(info.collector stage).job.isSome && (info'.collector stage).job.isSome := by
    rw [startedJobs, map_filterMap, ← filterMap_eq_filter]
    apply filterMap_congr
    intro stage _
    cases hold : (info.collector stage).job with
    | some j => simp [Option.guard, hold]
    | none =>
      cases hnew : (info'.collector stage).job <;>
        simp [Option.guard, runningJob, hold, hnew, key]
  rw [hstages]
  apply Nodup.filter
  decide

/-! ## The invariant -/

namespace SlowPath

variable (cfg : ReplicaConfig) (valid : Stage → ViewNum → SeqNum → ReplicaId → Bool) (st : SlowPath)

/-- Every slot is served, and jobs and results belong to slots. -/
structure Inv : Prop where
  begin_pos : 1 ≤ st.mainLog.beginningOfActiveWindow
  slots : ∀ s, st.mainLog.Holds s → (st.mainLog.lookup s).Prompt cfg valid st.curView s
  /-- Between two views the slots are empty. -/
  inactive : st.currentViewIsActive = false → ∀ s, st.mainLog.Holds s →
    (st.mainLog.lookup s).prePrepareMsg = none ∧
      ∀ stage, (st.mainLog.lookup s).collector stage = {}
  view_le : ∀ J ∈ st.jobs, J.view ≤ st.curView
  active : ∀ J ∈ st.jobs, J.view = st.curView → st.currentViewIsActive = true
  seqNumber_lt : ∀ J ∈ st.jobs, J.seqNumber < st.mainLog.beginningOfActiveWindow + 300
  running : ∀ J ∈ st.jobs, J.view = st.curView → st.mainLog.Holds J.seqNumber →
    ((st.mainLog.lookup J.seqNumber).collector J.stage).job = some J.job
  shares : ∀ J ∈ st.jobs, ∀ d items, J.job = .SignaturesProcessingJob d items →
    items.length = cfg.requiredForSlowPath ∧ items.Nodup
  keys : (st.jobs.map (·.key)).Nodup

variable {cfg valid st} {s : SeqNum} {jobs : List BackgroundJob} {i : ℕ}

theorem inv_start : Inv cfg valid {} where
  begin_pos := le_refl _
  slots := fun s _ => prompt_default
  inactive := nofun
  view_le := nofun
  active := nofun
  seqNumber_lt := nofun
  running := nofun
  shares := fun J hJ => absurd hJ (by simp)
  keys := nodup_nil

theorem ne_zero_of_holds (h : Inv cfg valid st) (hs : st.mainLog.Holds s) : s ≠ 0 := by
  have := (holds_iff.1 hs).2.1
  have := h.begin_pos
  lia

/-- Results may be dropped. -/
theorem Inv.sublist (h : Inv cfg valid st) (hsub : jobs.Sublist st.jobs) :
    Inv cfg valid { st with jobs := jobs } where
  begin_pos := h.begin_pos
  slots := h.slots
  inactive := h.inactive
  view_le := fun J hJ => h.view_le J (hsub.subset hJ)
  active := fun J hJ => h.active J (hsub.subset hJ)
  seqNumber_lt := fun J hJ => h.seqNumber_lt J (hsub.subset hJ)
  running := fun J hJ => h.running J (hsub.subset hJ)
  shares := fun J hJ => h.shares J (hsub.subset hJ)
  keys := (hsub.map _).nodup h.keys

/-- Every collector of the window that has started a job gets a result. -/
def Served (st : SlowPath) : Prop :=
  ∀ s, st.mainLog.Holds s → ∀ stage,
    ((st.mainLog.lookup s).collector stage).job.isSome = true →
      ∃ J ∈ st.jobs, J.key = (stage, s, st.curView)

/-- A slot is replaced, and jobs for it are started. -/
theorem Inv.put (h : Inv cfg valid st) (hactive : st.currentViewIsActive = true) {s : SeqNum}
    (hs : st.mainLog.Holds s) {info : SeqNumInfo} (hprompt : info.Prompt cfg valid st.curView s)
    {old started : List BackgroundJob} (hold : old.Sublist st.jobs)
    (hkeep : ∀ J ∈ old, J.view = st.curView → J.seqNumber = s →
      (info.collector J.stage).job = some J.job)
    (hstarted : ∀ J ∈ started, J.seqNumber = s ∧ J.view = st.curView ∧
      (info.collector J.stage).job = some J.job)
    (hkeys : ((old ++ started).map (·.key)).Nodup) :
    Inv cfg valid { st with mainLog := st.mainLog.set s info, jobs := old ++ started } where
  begin_pos := h.begin_pos
  slots := by
    intro n hn
    rw [lookup_set hs hn]
    split
    next heq => exact heq ▸ hprompt
    next => exact h.slots n hn
  inactive := fun hnot => absurd (hactive.symm.trans hnot) (by simp)
  view_le := by
    intro J hJ
    rcases mem_append.1 hJ with hJ | hJ
    · exact h.view_le J (hold.subset hJ)
    · exact (hstarted J hJ).2.1.le
  active := fun _ _ _ => hactive
  seqNumber_lt := by
    intro J hJ
    rcases mem_append.1 hJ with hJ | hJ
    · exact h.seqNumber_lt J (hold.subset hJ)
    · rw [(hstarted J hJ).1]
      exact (holds_iff.1 hs).2.2
  running := by
    intro J hJ hview hn
    rw [lookup_set hs hn]
    rcases mem_append.1 hJ with hJ | hJ
    · split
      next heq => exact hkeep J hJ hview heq
      next => exact h.running J (hold.subset hJ) hview hn
    · rw [if_pos (hstarted J hJ).1]
      exact (hstarted J hJ).2.2
  shares := by
    intro J hJ d items hjob
    rcases mem_append.1 hJ with hJ | hJ
    · exact h.shares J (hold.subset hJ) d items hjob
    · obtain ⟨-, -, hrun⟩ := hstarted J hJ
      rw [hjob] at hrun
      obtain ⟨hlength, hnodup, -⟩ := (hprompt.collectors J.stage).shares d items hrun
      exact ⟨hlength, hnodup⟩
  keys := hkeys

theorem Served.put (h : Served st) {s : SeqNum} (hs : st.mainLog.Holds s) {info : SeqNumInfo}
    {jobs : List BackgroundJob} (hother : ∀ J ∈ st.jobs, J.seqNumber ≠ s → J ∈ jobs)
    (hslot : ∀ stage, (info.collector stage).job.isSome = true →
      ∃ J ∈ jobs, J.key = (stage, s, st.curView)) :
    Served { st with mainLog := st.mainLog.set s info, jobs := jobs } := by
  intro n hn stage hsome
  rw [lookup_set hs hn] at hsome
  split at hsome
  next heq => exact heq ▸ hslot stage hsome
  next hne =>
    obtain ⟨J, hJ, hkey⟩ := h n hn stage hsome
    refine ⟨J, hother J hJ ?_, hkey⟩
    have hn : J.seqNumber = n := congrArg (·.2.1) hkey
    rwa [hn]

/-! ## Calls -/

theorem Inv.call (h : Inv cfg valid st) {c : SlotCall} (hallowed : st.Allowed cfg (.call c)) :
    ∃ st', st.step cfg (.call c) = .ok st' ∧ Inv cfg valid st' ∧ (Served st → Served st') := by
  obtain ⟨hactive, hview, hs, hcall⟩ := hallowed
  have hslot := h.slots _ hs
  obtain ⟨info, hrun, hprompt, hkeeps⟩ := hslot.run (ne_zero_of_holds h hs) rfl hview hcall
  -- the target of a collector with a job is the number of the slot in the current view
  have htarget : ∀ stage j, (info.collector stage).job = some j →
      (info.collector stage).expectedSeqNumber = c.seqNumber ∧
        (info.collector stage).expectedView = st.curView := by
    intro stage j hj
    exact hprompt.target stage ((hprompt.collectors stage).base.job_waiting j hj).1
  have hstarted : ∀ J ∈ startedJobs (st.mainLog.lookup c.seqNumber) info,
      J.seqNumber = c.seqNumber ∧ J.view = st.curView ∧
        (info.collector J.stage).job = some J.job := by
    intro J hJ
    obtain ⟨-, hj, hseq, hJview⟩ := mem_startedJobs hJ
    obtain ⟨hs', hv'⟩ := htarget J.stage J.job hj
    exact ⟨hseq.symm.trans hs', hJview.symm.trans hv', hj⟩
  have hkeys : ((st.jobs ++ startedJobs (st.mainLog.lookup c.seqNumber) info).map (·.key)).Nodup := by
    rw [map_append]
    refine h.keys.append (nodup_startedJobs _ _) ?_
    intro k hk hk'
    -- a job of the pool with this key would be running in the collector
    obtain ⟨J, hJ, rfl⟩ := mem_map.1 hk
    obtain ⟨J', hJ', hkey⟩ := mem_map.1 hk'
    obtain ⟨hseq', hview', -⟩ := hstarted J' hJ'
    obtain ⟨hstage, hseq, hJview⟩ : J'.stage = J.stage ∧ J'.seqNumber = J.seqNumber ∧
        J'.view = J.view := by
      simpa [key] using hkey
    have hJs : J.seqNumber = c.seqNumber := hseq.symm.trans hseq'
    have hrunning := h.running J hJ (hJview.symm.trans hview') (hJs ▸ hs)
    rw [hJs, ← hstage, (mem_startedJobs hJ').1] at hrunning
    simp at hrunning
  refine ⟨_, ?_, h.put hactive hs hprompt (Sublist.refl _) ?_ hstarted hkeys, ?_⟩
  · unfold SlowPath.step
    dsimp only
    rw [get_eq hs, ok_bind, hrun]
    rfl
  · intro J hJ hJview hJs
    exact hkeeps J.stage J.job (hJs ▸ h.running J hJ hJview (hJs ▸ hs))
  · intro hserved
    refine hserved.put hs (fun J hJ _ => mem_append_left _ hJ) ?_
    intro stage hsome
    obtain ⟨j, hj⟩ := Option.isSome_iff_exists.1 hsome
    cases hold : ((st.mainLog.lookup c.seqNumber).collector stage).job with
    | some j' =>
      obtain ⟨J, hJ, hkey⟩ := hserved _ hs stage (by simp [hold])
      exact ⟨J, mem_append_left _ hJ, hkey⟩
    | none =>
      obtain ⟨hs', hv'⟩ := htarget stage j hj
      refine ⟨⟨stage, c.seqNumber, st.curView, j⟩, mem_append_right _ ?_, rfl⟩
      refine mem_filterMap.2 ⟨stage, by cases stage <;> simp, ?_⟩
      rw [if_neg (by simp [hold]), runningJob, hj, hs', hv', Option.map_some]

/-! ## Results -/

variable (valid st) in
/-- A failed job blames only replicas whose share is bad. -/
def BlamesRightly : SlowPathEvent → Prop
  | .handleResult i (.combiningFailed bad) => ∀ J ∈ st.jobs[i]?,
      ∀ r ∈ bad, valid J.stage J.view J.seqNumber r = false
  | _ => True

/-- The result of a job for a number of the window in the current view is not handled while the
    replica is collecting state. -/
def Delivers (st : SlowPath) : SlowPathEvent → Prop
  | .handleResult i _ => ∀ J ∈ st.jobs[i]?, J.view = st.curView →
      st.mainLog.Holds J.seqNumber → st.isCollectingState = false
  | _ => True

instance (valid : Stage → ViewNum → SeqNum → ReplicaId → Bool) (st : SlowPath) :
    (ev : SlowPathEvent) → Decidable (st.BlamesRightly valid ev)
  | .handleResult _ (.combiningFailed _) => inferInstanceAs (Decidable (∀ J ∈ _, ∀ r ∈ _, _ = false))
  | .handleResult _ (.combiningSucceeded _) | .handleResult _ .verified => .isTrue trivial
  | .call _ | .update _ _ | .advanceActiveWindow _ | .MoveToHigherView _ => .isTrue trivial
  | .enterView | .startCollectingState | .onTransferringComplete => .isTrue trivial

instance (st : SlowPath) : (ev : SlowPathEvent) → Decidable (st.Delivers ev)
  | .handleResult _ _ => inferInstanceAs (Decidable (∀ J ∈ _, _ = _ → _ → _ = false))
  | .call _ | .update _ _ | .advanceActiveWindow _ | .MoveToHigherView _ => .isTrue trivial
  | .enterView | .startCollectingState | .onTransferringComplete => .isTrue trivial

theorem jobIsRelevant_iff {v : ViewNum} : st.jobIsRelevant v s = true ↔
    st.isCollectingState = false ∧ st.currentViewIsActive = true ∧ st.curView = v ∧
      st.mainLog.Holds s := by
  simp [jobIsRelevant, SequenceWithActiveWindow.Holds, and_assoc]

theorem perm_eraseIdx (h : jobs[i]? = some J) : (J :: jobs.eraseIdx i).Perm jobs := by
  obtain ⟨hi, rfl⟩ := List.getElem?_eq_some_iff.1 h
  exact getElem_cons_eraseIdx_perm hi

/-- No other job has the key of the job whose result is handled. -/
theorem Inv.key_notMem (h : Inv cfg valid st) (hJ : st.jobs[i]? = some J) :
    J.key ∉ (st.jobs.eraseIdx i).map (·.key) := by
  have hkeys := ((perm_eraseIdx hJ).map (·.key)).nodup_iff.2 h.keys
  exact (nodup_cons.1 hkeys).1

/-- A result that no collector waits for is dropped, and so is one during a state transfer. -/
theorem Inv.dropResult (h : Inv cfg valid st) (hJ : st.jobs[i]? = some J)
    (hirrelevant : st.jobIsRelevant J.view J.seqNumber = false) (result : SeqNumInfo.JobResult)
    (hserved : Served st) :
    Served { st with jobs := st.jobs.eraseIdx i } ↔ st.Delivers (.handleResult i result) := by
  constructor
  · intro hserved' J' hJ' hview hs
    obtain rfl : J = J' := Option.some.inj (hJ.symm.trans hJ')
    -- its collector still waits for it
    have hrunning := h.running J (mem_of_getElem? hJ) hview hs
    obtain ⟨K, hK, hkey⟩ := hserved' J.seqNumber hs J.stage
      (by simp only [hrunning, Option.isSome_some])
    rw [← hview] at hkey
    exact absurd (mem_map.2 ⟨K, hK, hkey⟩) (h.key_notMem hJ)
  · intro hdelivers s hs stage hsome
    obtain ⟨K, hK, hkey⟩ := hserved s hs stage hsome
    rcases mem_cons.1 ((perm_eraseIdx hJ).mem_iff.2 hK) with rfl | hrest
    · obtain ⟨-, rfl, hview⟩ : K.stage = stage ∧ K.seqNumber = s ∧ K.view = st.curView := by
        simpa [key] using hkey
      have hrelevant := jobIsRelevant_iff.2
        ⟨hdelivers K hJ hview hs, h.active K hK hview, hview.symm, hs⟩
      exact absurd (hrelevant.symm.trans hirrelevant) (by simp)
    · exact ⟨K, hrest, hkey⟩

/-- The result of the running job: the collector goes on, and may start the next job. -/
theorem Inv.deliverResult (h : Inv cfg valid st) {i : ℕ} {J : BackgroundJob}
    (hJ : st.jobs[i]? = some J) (hactive : st.currentViewIsActive = true)
    (hview : J.view = st.curView) (hs : st.mainLog.Holds J.seqNumber)
    {c : CollectorOfThresholdSignatures}
    (hprompt : ((st.mainLog.lookup J.seqNumber).withCollector c J.stage).Prompt cfg valid st.curView
      J.seqNumber) :
    Inv cfg valid { st with
        mainLog := st.mainLog.set J.seqNumber
          ((st.mainLog.lookup J.seqNumber).withCollector c J.stage)
        jobs := st.jobs.eraseIdx i ++ (c.runningJob J.stage).toList } ∧
      (Served st → Served { st with
        mainLog := st.mainLog.set J.seqNumber
          ((st.mainLog.lookup J.seqNumber).withCollector c J.stage)
        jobs := st.jobs.eraseIdx i ++ (c.runningJob J.stage).toList }) := by
  have hcollector : ((st.mainLog.lookup J.seqNumber).withCollector c J.stage).collector J.stage = c := by
    rw [collector_withCollector, if_pos rfl]
  have htarget : ∀ j, c.job = some j →
      c.expectedSeqNumber = J.seqNumber ∧ c.expectedView = J.view := by
    intro j hj
    have hc := hprompt.collectors J.stage
    have htarget := hprompt.target J.stage
    rw [hcollector] at hc htarget
    rw [hview]
    exact htarget (hc.base.job_waiting j hj).1
  have hnext : ∀ J' ∈ (c.runningJob J.stage).toList, J'.key = J.key ∧ c.job = some J'.job := by
    intro J' hJ'
    obtain ⟨j, hj, rfl⟩ := Option.map_eq_some_iff.1 (Option.mem_toList.1 hJ')
    exact ⟨Prod.ext rfl (Prod.ext (htarget j hj).1 (htarget j hj).2), hj⟩
  have hsub := eraseIdx_sublist st.jobs i
  have hfresh := h.key_notMem hJ
  constructor
  · refine h.put hactive hs hprompt hsub ?_ ?_ ?_
    · -- another job of this slot belongs to the other collector
      intro J' hJ' hview' hs'
      have hrunning := h.running J' (hsub.subset hJ') hview' (hs' ▸ hs)
      have hstage : J'.stage ≠ J.stage := by
        intro hstage
        apply hfresh
        refine mem_map.2 ⟨J', hJ', ?_⟩
        exact Prod.ext hstage (Prod.ext hs' (hview'.trans hview.symm))
      rw [collector_withCollector, if_neg hstage, ← hs']
      exact hrunning
    · intro J' hJ'
      obtain ⟨hkey, hj⟩ := hnext J' hJ'
      obtain ⟨hstage, hseq, hv⟩ : J'.stage = J.stage ∧ J'.seqNumber = J.seqNumber ∧
          J'.view = J.view := by
        simpa [key] using hkey
      rw [hstage, hcollector]
      exact ⟨hseq, hv.trans hview, hj⟩
    · rw [map_append]
      refine ((hsub.map _).nodup h.keys).append ?_ ?_
      · cases c.runningJob J.stage <;> simp
      · intro k hk hk'
        obtain ⟨J', hJ', rfl⟩ := mem_map.1 hk'
        exact hfresh ((hnext J' hJ').1 ▸ hk)
  · intro hserved
    refine hserved.put hs ?_ ?_
    · intro K hK hne
      rcases mem_cons.1 ((perm_eraseIdx hJ).mem_iff.2 hK) with rfl | hrest
      · exact absurd rfl hne
      · exact mem_append_left _ hrest
    · intro stage hsome
      rw [collector_withCollector] at hsome
      by_cases hstage : stage = J.stage
      · rw [if_pos hstage] at hsome
        obtain ⟨j, hj⟩ := Option.isSome_iff_exists.1 hsome
        have hmem : ⟨J.stage, c.expectedSeqNumber, c.expectedView, j⟩ ∈
            (c.runningJob J.stage).toList := by
          rw [runningJob, hj]
          simp
        refine ⟨_, mem_append_right _ hmem, ?_⟩
        rw [(hnext _ hmem).1, key, hstage, hview]
      · rw [if_neg hstage] at hsome
        obtain ⟨K, hK, hkey⟩ := hserved _ hs stage hsome
        rcases mem_cons.1 ((perm_eraseIdx hJ).mem_iff.2 hK) with rfl | hrest
        · exact absurd (congrArg Prod.fst hkey).symm hstage
        · exact ⟨K, mem_append_left _ hrest, hkey⟩

/-- **A result is handled without a failing assertion**, and the collectors that wait are served unless
    the result is lost to a state transfer. -/
theorem Inv.handleResult (h : Inv cfg valid st) {result : SeqNumInfo.JobResult}
    (hallowed : st.Allowed cfg (.handleResult i result))
    (hblame : st.BlamesRightly valid (.handleResult i result)) :
    ∃ st', st.step cfg (.handleResult i result) = .ok st' ∧ Inv cfg valid st' ∧
      (Served st → (Served st' ↔ st.Delivers (.handleResult i result))) := by
  obtain ⟨J, hmem, hpossible⟩ := hallowed
  have hJ : st.jobs[i]? = some J := hmem
  unfold SlowPath.step
  dsimp only
  rw [hJ]
  dsimp only [SlowPath.handleResult]
  split_ifs with hirrelevant
  · exact ⟨_, rfl, h.sublist (eraseIdx_sublist _ _), h.dropResult hJ hirrelevant result⟩
  obtain ⟨hcollecting, hactive, hview, hs⟩ := jobIsRelevant_iff.1 (by simpa using hirrelevant)
  have hrunning := h.running J (mem_of_getElem? hJ) hview.symm hs
  have hright : ∀ bad, result = .combiningFailed bad →
      ∀ r ∈ bad, valid J.stage st.curView J.seqNumber r = false := by
    rintro bad rfl r hr
    rw [hview]
    exact hblame J hJ r hr
  obtain ⟨c, hc, hprompt⟩ := (h.slots _ hs).complete rfl hview.symm hrunning hpossible hright
  obtain ⟨hinv, hserved⟩ := h.deliverResult hJ hactive hview.symm hs hprompt
  rw [get_eq hs, ok_bind, hc]
  refine ⟨_, rfl, hinv, ?_⟩
  intro hbefore
  exact ⟨fun _ _ _ _ _ => hcollecting, fun _ => hserved hbefore⟩

/-! ## The window and the view -/

theorem Inv.update (h : Inv cfg valid st) {info : SeqNumInfo}
    (hallowed : st.Allowed cfg (.update s info)) :
    Inv cfg valid { st with mainLog := st.mainLog.set s info } ∧
      (Served st → Served { st with mainLog := st.mainLog.set s info }) := by
  obtain ⟨hs, hpp, hprepare, hcommit⟩ := hallowed
  have hcollector : ∀ stage, info.collector stage = (st.mainLog.lookup s).collector stage := by
    intro stage
    cases stage with
    | prepare => exact hprepare
    | commit => exact hcommit
  have hlookup : ∀ n, st.mainLog.Holds n →
      ((st.mainLog.set s info).lookup n).prePrepareMsg = (st.mainLog.lookup n).prePrepareMsg ∧
        ∀ stage, ((st.mainLog.set s info).lookup n).collector stage =
          (st.mainLog.lookup n).collector stage := by
    intro n hn
    rw [lookup_set hs hn]
    split
    next heq => exact heq ▸ ⟨hpp, hcollector⟩
    next => exact ⟨rfl, fun _ => rfl⟩
  constructor
  · refine { h with slots := ?_, inactive := ?_, running := ?_ }
    · intro n hn
      exact (h.slots n hn).congr (hlookup n hn).1 (hlookup n hn).2
    · intro hnot n hn
      obtain ⟨hnone, hempty⟩ := h.inactive hnot n hn
      exact ⟨(hlookup n hn).1.trans hnone, fun stage => ((hlookup n hn).2 stage).trans (hempty stage)⟩
    · intro J hJ hview hn
      rw [(hlookup _ hn).2]
      exact h.running J hJ hview hn
  · intro hserved n hn stage
    rw [(hlookup n hn).2]
    exact hserved n hn stage

theorem Inv.advance (h : Inv cfg valid st) {newFirst : SeqNum}
    (hallowed : st.Allowed cfg (.advanceActiveWindow newFirst)) :
    ∃ w, st.mainLog.advanceActiveWindow newFirst = .ok w ∧
      Inv cfg valid { st with mainLog := w } ∧ (Served st → Served { st with mainLog := w }) := by
  obtain ⟨w, hw, hbegin, hlookup⟩ := advanceActiveWindow_spec
    (Int.emod_one _) (Int.emod_one _) hallowed
  -- a number of the new window stays in its slot, or gets an empty one
  have hentry : ∀ n, w.Holds n → st.mainLog.Holds n ∧ w.lookup n = st.mainLog.lookup n ∨
      st.mainLog.beginningOfActiveWindow + 300 ≤ n ∧ w.lookup n = default := by
    intro n hn
    obtain ⟨-, hlo, -⟩ := holds_iff.1 hn
    by_cases hold : n < st.mainLog.beginningOfActiveWindow + (300 : ℕ)
    · left
      rw [hlookup n hn, if_pos hold]
      refine ⟨holds_iff.2 ⟨Int.emod_one _, ?_, hold⟩, rfl⟩
      exact le_trans hallowed (hbegin ▸ hlo)
    · right
      rw [hlookup n hn, if_neg hold]
      lia
  refine ⟨w, hw, ?_, ?_⟩
  · refine { h with
      begin_pos := ?_, slots := ?_, inactive := ?_, seqNumber_lt := ?_, running := ?_ }
    · exact le_trans h.begin_pos (hbegin ▸ hallowed)
    · intro n hn
      rcases hentry n hn with ⟨hold, heq⟩ | ⟨-, heq⟩
      · exact heq ▸ h.slots n hold
      · exact heq ▸ prompt_default
    · intro hnot n hn
      rcases hentry n hn with ⟨hold, heq⟩ | ⟨-, heq⟩
      · exact heq ▸ h.inactive hnot n hold
      · rw [heq]
        refine ⟨rfl, ?_⟩
        intro stage
        cases stage <;> rfl
    · intro J hJ
      have hlt := h.seqNumber_lt J hJ
      have hle : st.mainLog.beginningOfActiveWindow ≤ w.beginningOfActiveWindow := hbegin ▸ hallowed
      lia
    · intro J hJ hview hn
      rcases hentry _ hn with ⟨hold, heq⟩ | ⟨hge, -⟩
      · rw [heq]
        exact h.running J hJ hview hold
      · exact absurd (h.seqNumber_lt J hJ) (not_lt.2 hge)
  · intro hserved n hn stage hsome
    rcases hentry n hn with ⟨hold, heq⟩ | ⟨-, heq⟩
    · rw [heq] at hsome
      exact hserved n hold stage hsome
    · rw [heq] at hsome
      cases stage <;> exact absurd hsome (by simp [collector, default])

/-- **Leaving a view** leaves empty slots, and no job is for the new view. -/
theorem Inv.moveToHigherView (h : Inv cfg valid st) {nextView : ViewNum} (hlt : st.curView < nextView)
    {w : SequenceWithActiveWindow 300 1 SeqNumInfo}
    (hbegin : w.beginningOfActiveWindow = st.mainLog.beginningOfActiveWindow)
    (hempty : ∀ n, w.Holds n → (w.lookup n).prePrepareMsg = none ∧
      ∀ stage, (w.lookup n).collector stage = {}) :
    Inv cfg valid { st with curView := nextView, currentViewIsActive := false, mainLog := w } ∧
      Served { st with curView := nextView, currentViewIsActive := false, mainLog := w } := by
  have hold : ∀ J ∈ st.jobs, J.view ≠ nextView := by
    intro J hJ
    exact (lt_of_le_of_lt (h.view_le J hJ) hlt).ne
  constructor
  · refine { h with
      begin_pos := ?_, slots := ?_, inactive := fun _ => hempty, view_le := ?_, active := ?_,
      seqNumber_lt := ?_, running := ?_ }
    · exact hbegin ▸ h.begin_pos
    · intro n hn
      obtain ⟨hnone, hcollectors⟩ := hempty n hn
      apply prompt_default.congr hnone
      intro stage
      rw [hcollectors]
      cases stage <;> rfl
    · intro J hJ
      exact (lt_of_le_of_lt (h.view_le J hJ) hlt).le
    · exact fun J hJ hview => absurd hview (hold J hJ)
    · exact fun J hJ => hbegin ▸ h.seqNumber_lt J hJ
    · exact fun J hJ hview => absurd hview (hold J hJ)
  · intro n hn stage hsome
    rw [(hempty n hn).2] at hsome
    simp at hsome

/-! ## Runs -/

/-- **One event**: no assertion fails, and the waiting collectors stay served exactly if no result is
    lost to a state transfer. -/
theorem Inv.step (h : Inv cfg valid st) {ev : SlowPathEvent} (hallowed : st.Allowed cfg ev)
    (hblame : st.BlamesRightly valid ev) :
    ∃ st', st.step cfg ev = .ok st' ∧ Inv cfg valid st' ∧
      (Served st → (Served st' ↔ st.Delivers ev)) := by
  cases ev with
  | call c =>
    obtain ⟨st', hstep, hinv, hserved⟩ := h.call hallowed
    exact ⟨st', hstep, hinv, fun hbefore => iff_of_true (hserved hbefore) trivial⟩
  | update s info =>
    obtain ⟨hinv, hserved⟩ := h.update hallowed
    exact ⟨_, rfl, hinv, fun hbefore => iff_of_true (hserved hbefore) trivial⟩
  | advanceActiveWindow newFirst =>
    obtain ⟨w, hw, hinv, hserved⟩ := h.advance hallowed
    unfold SlowPath.step
    dsimp only
    rw [hw]
    exact ⟨_, rfl, hinv, fun hbefore => iff_of_true (hserved hbefore) trivial⟩
  | MoveToHigherView nextView =>
    refine ⟨_, rfl, ?_⟩
    have hleft := h.moveToHigherView hallowed (w := if st.currentViewIsActive then
      .resetAll st.mainLog.beginningOfActiveWindow else st.mainLog)
    obtain ⟨hinv, hserved⟩ := hleft (by split <;> rfl) (by
      intro n
      split
      next =>
        refine fun _ => ⟨rfl, ?_⟩
        intro stage
        cases stage <;> rfl
      next hnot => exact h.inactive (by simpa using hnot) n)
    exact ⟨hinv, fun _ => iff_of_true hserved trivial⟩
  | enterView =>
    refine ⟨_, rfl, ?_, fun hbefore => iff_of_true hbefore trivial⟩
    exact { h with inactive := nofun, active := fun _ _ _ => rfl }
  | startCollectingState | onTransferringComplete =>
    exact ⟨_, rfl, { h with }, fun hbefore => iff_of_true hbefore trivial⟩
  | handleResult i result => exact h.handleResult hallowed hblame

/-- An event that fails no assertion. -/
def next (cfg : ReplicaConfig) (st : SlowPath) (ev : SlowPathEvent) : Option SlowPath :=
  (st.step cfg ev).toOption

/-- `st` is reached from the start by events that are allowed. -/
def Reaches (cfg : ReplicaConfig) (st : SlowPath) : Prop :=
  Machine.Reaches (next cfg) (fun st ev => st.Allowed cfg ev) {} st

variable (cfg valid st) in
/-- In addition, no share is blamed that is good, and no result is lost to a state transfer. -/
def ReachesDelivering : Prop :=
  Machine.Reaches (next cfg)
    (fun st ev => st.Allowed cfg ev ∧ st.BlamesRightly valid ev ∧ st.Delivers ev) {} st

theorem blamesRightly_false (st : SlowPath) (ev : SlowPathEvent) :
    st.BlamesRightly (fun _ _ _ _ => false) ev := by
  cases ev with
  | handleResult i result =>
    cases result with
    | combiningFailed bad => exact fun _ _ _ _ => rfl
    | combiningSucceeded sig => trivial
    | verified => trivial
  | _ => trivial

theorem Reaches.inv (h : Reaches cfg st) : Inv cfg (fun _ _ _ _ => false) st := by
  refine Machine.Reaches.invariant _ inv_start ?_ h
  intro u ev u' hinv hallowed hnext
  obtain ⟨st', hstep, hinv', -⟩ := hinv.step hallowed (blamesRightly_false u ev)
  rw [next, hstep] at hnext
  exact Option.some.inj hnext ▸ hinv'

theorem ReachesDelivering.inv (h : ReachesDelivering cfg valid st) :
    Inv cfg valid st ∧ Served st := by
  refine Machine.Reaches.invariant (fun st => Inv cfg valid st ∧ Served st) ⟨inv_start, ?_⟩ ?_ h
  · intro s _ stage hsome
    cases stage <;> exact absurd hsome (by simp [collector, default])
  · rintro u ev u' ⟨hinv, hserved⟩ ⟨hallowed, hblame, hdelivers⟩ hnext
    obtain ⟨st', hstep, hinv', hserved'⟩ := hinv.step hallowed hblame
    rw [next, hstep] at hnext
    obtain rfl := Option.some.inj hnext
    exact ⟨hinv', (hserved' hserved).2 hdelivers⟩

/-- What a collector of number `s` in view `v` holds. -/
structure HoldsVerified (cfg : ReplicaConfig) (v : ViewNum) (s : SeqNum)
    (c : CollectorOfThresholdSignatures) : Prop where
  counter_eq : c.numberOfUnknownSignatures =
    (c.replicasInfo.filter fun r => r.2.state != .Invalid).length
  verified : ∀ m, c.combinedValidSignatureMsg = some m →
    c.expectedSeqNumber = s ∧ c.expectedView = v ∧ m.seqNumber = s ∧ m.viewNumber = v ∧
      cfg.verify .SlowPathCommit c.expectedDigest m.signatureBody = true

theorem Inv.holdsVerified (h : Inv cfg valid st) (hs : st.mainLog.Holds s) (stage : Stage) :
    HoldsVerified cfg st.curView s ((st.mainLog.lookup s).collector stage) where
  counter_eq := by
    rw [((h.slots s hs).collectors stage).counter_eq, usableReplicas, length_map]
  verified := by
    intro m hm
    have hc := (h.slots s hs).collectors stage
    obtain ⟨hne, hverify⟩ := hc.base.valid_verified m hm
    obtain ⟨hseq, hview⟩ := (h.slots s hs).target stage hne
    obtain ⟨hmview, hmseq⟩ := hc.base.valid_good m hm
    exact ⟨hseq, hview, hmseq, hmview, hverify⟩

/-- **Collectors are consistent under all schedules.** In every state of a run: whatever is allowed to
    happen next happens without a failing assertion; no two jobs have the same collector, number and
    view, and a job for a number of the window in the current view is the one that its collector runs;
    every job on shares has as many as required, of different replicas; the counters count the shares
    that are not marked as invalid; and a combined signature that is kept was verified for the
    expected number, view and digest. -/
theorem collectors_consistent (cfg : ReplicaConfig) (st : SlowPath) (hr : Reaches cfg st) :
    (∀ ev, st.Allowed cfg ev → ∃ st', st.step cfg ev = .ok st') ∧
    (st.jobs.map (·.key)).Nodup ∧
    (∀ J ∈ st.jobs, J.view = st.curView → st.mainLog.Holds J.seqNumber →
      ((st.mainLog.lookup J.seqNumber).collector J.stage).job = some J.job) ∧
    (∀ J ∈ st.jobs, ∀ d items, J.job = .SignaturesProcessingJob d items →
      items.length = cfg.requiredForSlowPath ∧ items.Nodup) ∧
    ∀ s, st.mainLog.Holds s → ∀ stage,
      HoldsVerified cfg st.curView s ((st.mainLog.lookup s).collector stage) := by
  have hinv := hr.inv
  refine ⟨?_, hinv.keys, hinv.running, hinv.shares, fun s hs => hinv.holdsVerified hs⟩
  intro ev hallowed
  obtain ⟨st', hstep, -⟩ := hinv.step hallowed (blamesRightly_false st ev)
  exact ⟨st', hstep⟩

/-- Replica 1 collects prepare shares for 200, one of them bad, while the window moves past number 5,
    whose job has not returned yet. -/
def eventsUpTo200 : List SlowPathEvent :=
  [.call (.addPrePrepare (.createNullPrePrepareMsg 0 0 5)), .call (.addPrepareFull ⟨0, 0, 5, [7]⟩),
    .call (.addPrePrepare (.createNullPrePrepareMsg 0 0 200)),
    .call (.addPreparePartial ⟨0, 0, 200⟩), .call (.addPreparePartial ⟨2, 0, 200⟩),
    .call (.addPreparePartial ⟨3, 0, 200⟩), .advanceActiveWindow 151, .handleResult 0 .verified,
    .handleResult 0 (.combiningFailed [3]), .call (.addSelfPreparePartial ⟨1, 0, 200⟩),
    .handleResult 0 (.combiningSucceeded [9])]

theorem collectors_consistent_eventsUpTo200 :
    ∃ st, Reaches (fourReplicas 1) st ∧
      ((st.mainLog.lookup 200).collector .prepare).combinedValidSignatureMsg =
        some ⟨1, 0, 200, [9]⟩ ∧
      HoldsVerified (fourReplicas 1) st.curView 200 ((st.mainLog.lookup 200).collector .prepare) := by
  obtain ⟨st, hreaches, hs, hcombined⟩ : ∃ st, Reaches (fourReplicas 1) st ∧
      st.mainLog.Holds 200 ∧ ((st.mainLog.lookup 200).collector .prepare).combinedValidSignatureMsg =
        some ⟨1, 0, 200, [9]⟩ := Machine.exists_reaches eventsUpTo200 (by decide +kernel)
  exact ⟨st, hreaches, hcombined,
    (collectors_consistent (fourReplicas 1) st hreaches).2.2.2.2 200 hs .prepare⟩

/-! ## Progress -/

/-- A collector that was served and has nothing running is complete as soon as it can be. -/
theorem Inv.complete_of_idle (h : Inv cfg valid st) {s : SeqNum} (hs : st.mainLog.Holds s)
    (stage : Stage) (hidle : ((st.mainLog.lookup s).collector stage).job = none)
    (htarget : ((st.mainLog.lookup s).collector stage).expectedSeqNumber ≠ 0)
    (henough : cfg.requiredForSlowPath ≤ (((st.mainLog.lookup s).collector stage).replicasInfo.filter
        fun r => valid stage st.curView s r.1).length ∨
      ((st.mainLog.lookup s).collector stage).candidateCombinedSignatureMsg.isSome = true) :
    ((st.mainLog.lookup s).collector stage).isComplete = true := by
  have hc := (h.slots s hs).collectors stage
  by_contra hincomplete
  have hnone : ((st.mainLog.lookup s).collector stage).combinedValidSignatureMsg = none := by
    simpa [isComplete] using hincomplete
  obtain ⟨hcand, hfew⟩ := hc.idle hidle htarget hnone
  rcases henough with henough | hsome
  · -- good shares are never marked as invalid
    rw [hc.counter_eq, usableReplicas, length_map] at hfew
    have hle : (((st.mainLog.lookup s).collector stage).replicasInfo.filter
        fun r => valid stage st.curView s r.1).length ≤
        (((st.mainLog.lookup s).collector stage).replicasInfo.filter
          fun r => r.2.state != .Invalid).length := by
      rw [← countP_eq_length_filter, ← countP_eq_length_filter]
      apply countP_mono_left
      intro r hr hvalid
      rw [bne_iff_ne]
      intro hinvalid
      exact absurd ((hc.blamed r hr hinvalid).symm.trans hvalid) (by simp)
    omega
  · rw [hcand] at hsome
    simp at hsome

/-- Every collector of the window that has started a job gets a result for its target. -/
def NotWedged (st : SlowPath) : Prop :=
  ∀ s, st.mainLog.Holds s → ∀ stage,
    ((st.mainLog.lookup s).collector stage).job.isSome = true →
      ∃ J ∈ st.jobs, J.stage = stage ∧
        J.seqNumber = ((st.mainLog.lookup s).collector stage).expectedSeqNumber ∧
        J.view = ((st.mainLog.lookup s).collector stage).expectedView

theorem Inv.served_iff (h : Inv cfg valid st) : Served st ↔ NotWedged st := by
  refine forall₂_congr fun s hs => forall₂_congr fun stage hsome => ?_
  obtain ⟨j, hj⟩ := Option.isSome_iff_exists.1 hsome
  have hslot := h.slots s hs
  obtain ⟨hseq, hview⟩ := hslot.target stage ((hslot.collectors stage).base.job_waiting j hj).1
  simp [key, hseq, hview]

/-- **Signature processing never wedges, as long as no result is lost to a state transfer.** In every
    state of a run in which failed jobs blame bad shares only and no result for a number of the window
    in the current view is handled while the replica is collecting state: a collector of the window
    with a running job has its job in the thread pool, and a collector that knows its target, holds
    enough good shares or a candidate, and has no job left in the pool is complete. The next event
    keeps the first of these exactly if it loses no result. -/
theorem never_wedges_iff (cfg : ReplicaConfig)
    (valid : Stage → ViewNum → SeqNum → ReplicaId → Bool) (st : SlowPath)
    (hr : ReachesDelivering cfg valid st) :
    NotWedged st ∧
    (∀ s, st.mainLog.Holds s → ∀ stage,
      ((st.mainLog.lookup s).collector stage).expectedSeqNumber ≠ 0 →
      (cfg.requiredForSlowPath ≤ (((st.mainLog.lookup s).collector stage).replicasInfo.filter
          fun r => valid stage st.curView s r.1).length ∨
        ((st.mainLog.lookup s).collector stage).candidateCombinedSignatureMsg.isSome = true) →
      (∀ J ∈ st.jobs, J.key ≠ (stage, s, st.curView)) →
      ((st.mainLog.lookup s).collector stage).isComplete = true) ∧
    ∀ ev st', st.Allowed cfg ev → st.BlamesRightly valid ev → st.step cfg ev = .ok st' →
      (NotWedged st' ↔ st.Delivers ev) := by
  obtain ⟨hinv, hserved⟩ := hr.inv
  refine ⟨hinv.served_iff.1 hserved, ?_, ?_⟩
  · intro s hs stage htarget henough hdone
    apply hinv.complete_of_idle hs stage ?_ htarget henough
    by_contra hsome
    obtain ⟨J, hJ, hkey⟩ := hserved s hs stage (Option.isSome_iff_ne_none.2 hsome)
    exact hdone J hJ hkey
  · intro ev st' hallowed hblame hstep
    obtain ⟨st'', hstep', hinv', hiff⟩ := hinv.step hallowed hblame
    rw [hstep] at hstep'
    obtain rfl := Except.ok.inj hstep'
    rw [← hinv'.served_iff]
    exact hiff hserved

theorem never_wedges_eventsUpTo200 :
    ∃ st, ReachesDelivering (fourReplicas 1) (fun _ _ _ r => r != 3) st ∧ NotWedged st ∧
      st.mainLog.Holds 200 ∧
      3 ≤ (((st.mainLog.lookup 200).collector .prepare).replicasInfo.filter (·.1 != 3)).length ∧
      ((st.mainLog.lookup 200).collector .prepare).isComplete = true := by
  obtain ⟨st, hreaches, hs, henough, htarget, hdone⟩ :
      ∃ st, ReachesDelivering (fourReplicas 1) (fun _ _ _ r => r != 3) st ∧ st.mainLog.Holds 200 ∧
        3 ≤ (((st.mainLog.lookup 200).collector .prepare).replicasInfo.filter (·.1 != 3)).length ∧
        ((st.mainLog.lookup 200).collector .prepare).expectedSeqNumber ≠ 0 ∧ st.jobs = [] :=
    Machine.exists_reaches eventsUpTo200 (by decide +kernel)
  obtain ⟨hserved, hcomplete, -⟩ := never_wedges_iff _ _ st hreaches
  refine ⟨st, hreaches, hserved, hs, henough, ?_⟩
  exact hcomplete 200 hs .prepare htarget (Or.inl henough) (by simp [hdone])

/-- A PrePrepare for 200 and a combined prepare signature arrive; its verification ends while the
    replica transfers the state of checkpoint 150. -/
def eventsWithTransfer : List SlowPathEvent :=
  [.call (.addPrePrepare ⟨0, 0, 200, .SLOW, false, 2, [⟨4, 1, false, [], 0⟩]⟩),
    .call (.addSelfPreparePartial ⟨1, 0, 200⟩), .call (.addPrepareFull ⟨0, 0, 200, [7]⟩),
    .startCollectingState, .handleResult 0 .verified, .onTransferringComplete]

/-- The same as messages to the replica. -/
def inputsWithTransfer : List (ReplicaImp.Input Unit) :=
  [({}, .receive (.prePrepare ⟨0, 0, 200, .SLOW, false, 2, [⟨4, 1, false, [], 0⟩]⟩)),
    ({}, .receive (.prepareFull ⟨0, 0, 200, [7]⟩)), ({}, .receive (.checkpoint ⟨0, 150, 7, true⟩)),
    ({ timeToStartStateTransfer := true }, .receive (.checkpoint ⟨2, 150, 7, true⟩)),
    ({}, .prepareJobResult 200 .verified), ({}, .transferringComplete 1 () fun _ _ => 0)]

/-- The prepare collector of 200 after the transfer: it holds a valid signature that nobody verifies. -/
def wedgedCollector : CollectorOfThresholdSignatures where
  replicasInfo := [(1, ⟨⟨1, 0, 200⟩, .Unknown⟩)]
  numberOfUnknownSignatures := 1
  candidateCombinedSignatureMsg := some ⟨0, 0, 200, [7]⟩
  job := some (.CombinedSigVerificationJob (ReplicaConfig.prepareDigest 0 200 2) [7])
  expectedSeqNumber := 200
  expectedView := 0
  expectedDigest := ReplicaConfig.prepareDigest 0 200 2

theorem wedged_eventsWithTransfer :
    wedgedCollector.isComplete = false ∧
    (fourReplicas 1).verify .SlowPathCommit wedgedCollector.expectedDigest [7] = true ∧
    (∃ st, Reaches (fourReplicas 1) st ∧ st.isCollectingState = false ∧ st.jobs = [] ∧
      st.mainLog.Holds 200 ∧ (st.mainLog.lookup 200).prepareSigCollector = wedgedCollector) ∧
    ∃ r, ReplicaImp.Reachable (fourReplicas 1) constantReply r ∧ r.isCollectingState = false ∧
      r.lastExecutedSeqNum = 150 ∧ r.mainLog.Holds 200 ∧
      (r.mainLog.lookup 200).prepareSigCollector = wedgedCollector := by
  refine ⟨by decide, by decide, ?_, ?_⟩
  · exact Machine.exists_reaches eventsWithTransfer (by decide +kernel)
  · exact ReplicaImp.exists_reachable () [] inputsWithTransfer (by decide +kernel)

end SlowPath

end ConcordBft
