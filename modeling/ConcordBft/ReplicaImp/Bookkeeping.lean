import ConcordBft.ReplicaImp.Runs

set_option autoImplicit false

/-! # The counters and windows of a replica

What the counters of a replica satisfy in every state of a run, and which reads of its windows can
fail: none. The last part is about the active primary, which counts the numbers it has used: this
counter is reset when a view is entered, and the last executed number is not. -/

namespace ConcordBft.ReplicaImp

open Checked Machine Scope

variable {App : Type} {cfg : ReplicaConfig} {handler : RequestsHandler App} {env : Env}
  {M : Scope App} {r r' : ReplicaImp App} {n : SeqNum}

/-! ## Windows -/

/-- **Window bookkeeping.** In every state that a run reaches the counters fit the windows, the stable
    point never decreases, and no step reads a number outside of a window. -/
theorem windows_of_reachable (h : Reachable cfg handler r) :
    Counters r ∧
      (∀ i r', next cfg handler r i = some r' → r.lastStableSeqNum ≤ r'.lastStableSeqNum) ∧
      ∀ env e, r.step cfg handler env e ≠ .error .outsideActiveWindow := by
  have hw := h.wellFormed
  refine ⟨hw.toCounters, fun i r' hnext => (effects_of_next hw hnext).progress.stable_le, ?_⟩
  intro env e hfail
  obtain ⟨r₁, -, hcause⟩ := Meets.of_error (step_does hw e) hfail
  exact hcause

/-- Two stable checkpoints at 450, and then the state of checkpoint 600. -/
def transferTo600 : List (Input Unit) :=
  [({}, .receive (.checkpoint ⟨0, 450, 7#256, true⟩)),
   ({}, .receive (.checkpoint ⟨2, 450, 7#256, true⟩)),
   ({}, .transferringComplete 4 () fun _ _ => 0)]

set_option maxRecDepth 4000 in
theorem windows_of_transferTo600 :
    ∃ r, Reachable (fourReplicas 1) constantReply r ∧ r.lastStableSeqNum = 300 ∧
      r.lastExecutedSeqNum = 600 ∧ Counters r := by
  obtain ⟨r, hreach, hstable, hexec⟩ : ∃ r, Reachable (fourReplicas 1) constantReply r ∧
      r.lastStableSeqNum = 300 ∧ r.lastExecutedSeqNum = 600 :=
    exists_reachable () [] transferTo600 (by decide +kernel)
  exact ⟨r, hreach, hstable, hexec, (windows_of_reachable hreach).1⟩

/-! ## The active primary -/

/-- The numbers that the restrictions of the view mark as used reach the last executed one: either
    nothing was executed after the stable point, or some message of the set has an element above the
    lower bound and the restricted window is long enough. -/
def Covered (cfg : ReplicaConfig) (r : ReplicaImp App) (vm : ViewsManager) : Prop :=
  r.lastExecutedSeqNum ≤ r.lastStableSeqNum ∨
    (∃ vc ∈ cfg.safetyLogic.messages vm.viewChangeMsgsOfPendingView, ∃ e ∈ vc.elements,
        vm.lowerBoundStableForPendingView < e.seqNum) ∧
      (r.lastExecutedSeqNum ≤
          vm.lowerBoundStableForPendingView + kWorkWindowSize - checkpointWindowSize ∨
        r.lastExecutedSeqNum ≤ vm.lowerBoundStableForPendingView + kWorkWindowSize ∧
        ∃ i, vm.lowerBoundStableForPendingView + kWorkWindowSize - checkpointWindowSize < i ∧
          vm.isRestricted i = true)

/-- The active primary has used every number it executed, those up to `n` apart. -/
def Leads (cfg : ReplicaConfig) (n : SeqNum) (r : ReplicaImp App) : Prop :=
  r.currentViewIsActive = true → r.isCurrentPrimary cfg = true →
    r.lastExecutedSeqNum ≤ max r.primaryLastUsedSeqNum n

theorem Leads.le (hw : WellFormed cfg r) (h : Leads cfg 0 r) (hactive : r.currentViewIsActive = true)
    (hprimary : r.isCurrentPrimary cfg = true) : r.lastExecutedSeqNum ≤ r.primaryLastUsedSeqNum := by
  have := h hactive hprimary
  have := hw.used_ge
  have := hw.stable_nonneg
  lia

/-- The counter of the primary after the entry. -/
theorem le_last_of_covered {vm : ViewsManager} {pps : List PrePrepareMsg}
    (h : ViewsManager.Enters cfg r.curView r.lastStableSeqNum r.viewsManager vm pps)
    (hcovered : Covered cfg r vm) :
    r.lastExecutedSeqNum ≤ (r.setCountersOfNewView pps).primaryLastUsedSeqNum := by
  obtain ⟨last, hcounters, hlo, -, -, hlast⟩ := counters_of_entry h
  rw [hcounters]
  show r.lastExecutedSeqNum ≤ last
  rcases hcovered with hle | ⟨⟨vc, hvc, e, he, hlt⟩, hwindow⟩
  · lia
  obtain ⟨arr, -, hout⟩ := h.computed
  obtain ⟨⟨-, hin⟩, hmax⟩ :=
    (ViewChangeSafetyLogic.computeRestrictions_asserts cfg.safetyLogic _ _ arr).of_ok hout
  have hsome : cfg.safetyLogic.createIterators vm.viewChangeMsgsOfPendingView
      (vm.lowerBoundStableForPendingView + 1) ≠ [] := by
    intro hnil
    have := ViewChangeSafetyLogic.createIterators_eq_nil_iff _ _ hnil vc hvc e he
    lia
  obtain ⟨hmin, hrange⟩ := hin.some hsome
  have hmin' : vm.minRestrictionOfPendingView = vm.lowerBoundStableForPendingView + 1 := hmin
  have hrange' : vm.maxRestrictionOfPendingView = vm.lowerBoundStableForPendingView +
      kWorkWindowSize - checkpointWindowSize ∨
      vm.maxRestrictionOfPendingView = vm.lowerBoundStableForPendingView + kWorkWindowSize := hrange
  have hbound := h.wf.kept.bound_nonneg
  have hle : r.lastExecutedSeqNum ≤ vm.maxRestrictionOfPendingView := by
    rcases hwindow with hle | ⟨hle, i, hi, hrestricted⟩
    · unfold checkpointWindowSize at *
      lia
    -- a restriction in the last part of the window keeps the whole window
    obtain ⟨res, hres, hnull⟩ := (Option.any_eq_true _ _).1 hrestricted
    have hfull : vm.maxRestrictionOfPendingView =
        vm.lowerBoundStableForPendingView + kWorkWindowSize := by
      refine hmax _ res hres (by simpa using hnull) ?_ hsome
      unfold kWorkWindowSize checkpointWindowSize at *
      lia
    lia
  rcases hlast with ⟨rfl, hzero | hstable⟩ | rfl
  · lia
  · lia
  · exact hle

section

variable (hw : WellFormed cfg r)
  (henters : ∀ r₁ vm, M.enters r₁ vm → r₁.isCurrentPrimary cfg = true → Covered cfg r₁ vm)
include hw henters

/-- **Every effect keeps the lead of the primary**, if covered views are entered and no state above
    `n` is adopted. -/
theorem Effect.leads (htransfers : ∀ m, M.transfers m → m ≤ n) (h : Leads cfg n r)
    (he : Effect cfg handler M r r') : Leads cfg n r' := by
  intro hactive hprimary
  cases he with
  | stable m log cps =>
    have := h hactive hprimary
    show r.lastExecutedSeqNum ≤ max (max r.primaryLastUsedSeqNum m) n
    lia
  | execute pp x replies hM hact hcollecting hs hready =>
    -- the slot has a PrePrepare, so the primary has used its number
    have hused : ¬ r.primaryLastUsedSeqNum < r.lastExecutedSeqNum + 1 := by
      intro hlt
      have hnone := (hw.primary hact hprimary).2 _ hs hlt
      rw [(prePrepare_of_ready hready).1] at hnone
      simp at hnone
    show r.lastExecutedSeqNum + 1 ≤ max r.primaryLastUsedSeqNum n
    lia
  | use m hge =>
    have := h hactive hprimary
    show r.lastExecutedSeqNum ≤ max m n
    lia
  | views vm hfull hwf hquiet => exact h ((hquiet.active r.curView).symm.trans hactive) hprimary
  | transfer m cm hfull hm =>
    have := htransfers m hm
    show m ≤ max r.primaryLastUsedSeqNum n
    lia
  | jump m cm log cps hfull hm =>
    have := htransfers m hm
    show m ≤ max (max r.primaryLastUsedSeqNum (m - kWorkWindowSize)) n
    lia
  | leave v m vm log hfull hleft =>
    have hactive' : vm.viewIsActive v = true := hactive
    rw [ViewsManager.viewIsActive_eq_false hleft.inactive v] at hactive'
    simp at hactive'
  | enter vm pps log new hfull hm hentered =>
    obtain ⟨last, hcounters, -⟩ := counters_of_entry hentered.enters
    have hprimary' : r.isCurrentPrimary cfg = true := by
      rw [← hprimary, enterWith, hcounters]
      rfl
    have hle := le_last_of_covered hentered.enters (henters r vm hm hprimary')
    rw [hcounters] at hle
    rw [enterWith, hcounters]
    lia
  | _ => exact h hactive hprimary

theorem Effects.leads (htransfers : ∀ m, M.transfers m → m ≤ n) (h : Leads cfg n r)
    (he : Effects cfg handler M r r') : Leads cfg n r' := by
  have hboth : WellFormed cfg r' ∧ Leads cfg n r' := by
    refine he.invariant (I := fun r₁ => WellFormed cfg r₁ ∧ Leads cfg n r₁) ?_ ⟨hw, h⟩
    rintro r₁ r₂ ⟨hw₁, h₁⟩ he₁
    exact ⟨he₁.wellFormed hw₁, he₁.leads hw₁ henters htransfers h₁⟩
  exact hboth.2

/-- Where the primary keeps its lead, it never finds itself behind. -/
theorem Fails.not_behind (htransfers : ∀ m, M.transfers m → m ≤ 0) (h : Leads cfg 0 r) :
    ¬ Fails cfg handler env M r .primaryBehindExecution := by
  rintro ⟨r₁, he, hactive, hprimary, hlt⟩
  have hle := (he.leads hw henters htransfers h).le (he.wellFormed hw) hactive hprimary
  lia

end

/-! ### Completed state transfers -/

/-- The primary has no reason to propose while the windows move: without requests in its queue, or
    with its lead. -/
def MayPropose (cfg : ReplicaConfig) (r : ReplicaImp App) : Prop :=
  r.requestsQueueOfPrimary = [] ∨ Leads cfg 0 r

theorem tryToSendPrePrepareMsg_not_behind (handler : RequestsHandler App) (hw : WellFormed cfg r)
    (h : MayPropose cfg r) (hactive : r.currentViewIsActive = true)
    (hprimary : r.isCurrentPrimary cfg = true) :
    Meets (· ≠ .primaryBehindExecution) (fun _ => True) (r.tryToSendPrePrepareMsg cfg env false) := by
  rcases h with hqueue | hleads
  · unfold tryToSendPrePrepareMsg
    refine meets_require_bind (fun _ => by simp) fun _ => ?_
    refine meets_ite (fun _ => .ok trivial) fun _ => meets_ite (fun _ => .ok trivial) fun _ => ?_
    refine meets_ite (fun _ => .ok trivial) fun hne => absurd ?_ hne
    simp [removeIrrelevantRequests, hqueue]
  · have hdoes : Does cfg handler env proposing r
        (r.tryToSendPrePrepareMsg cfg env false) :=
      tryToSendPrePrepareMsg_does hw hactive hprimary false
    refine (Meets.mono hdoes fun _ _ => trivial).weaken ?_
    rintro e hfails rfl
    exact Fails.not_behind hw (fun _ _ => False.elim) (fun _ => False.elim) hleads hfails

theorem onStablePointMoved_not_behind (handler : RequestsHandler App) (hw : WellFormed cfg r)
    (h : MayPropose cfg r) :
    Meets (· ≠ .primaryBehindExecution) (fun _ => True) (r.onStablePointMoved cfg env) := by
  have hn := hw.holds_lastStable
  unfold onStablePointMoved
  refine meets_get hn (meets_require_bind (fun _ => by simp) fun _ => ?_)
  refine meets_ite (fun hpropose => ?_) fun _ => .ok trivial
  have hset : ∀ info, Effect cfg handler checkpointing r
      (r.setCheckpoint r.lastStableSeqNum info) := fun info =>
    .checkpoint _ info trivial hn fun _ => hw.stable_le
  exact tryToSendPrePrepareMsg_not_behind handler ((hset _).wellFormed hw) h hpropose.1 hpropose.2.2

/-- The stable point moves to an executed checkpoint, and all numbers above it are used. -/
theorem onSeqNumIsStable_not_behind (handler : RequestsHandler App) (hw : WellFormed cfg r)
    (hmod : n % checkpointWindowSize = 0) (hle : n ≤ r.lastExecutedSeqNum) (h : Leads cfg n r) :
    Meets (· ≠ .primaryBehindExecution) (fun _ => True) (r.onSeqNumIsStable cfg env n) := by
  unfold onSeqNumIsStable
  refine meets_require_bind (fun _ => by simp) fun _ => meets_ite (fun _ => .ok trivial) fun hlt => ?_
  have hcatch : r.catchUpWithStable cfg n = .ok r := catchUpWithStable_eq hle
  obtain ⟨log, cps, hadv, hadvanced⟩ := advanceStable_spec hw.mainLog_begin hw.checkpointsLog_begin
    hw.stable_mod hmod (le_of_lt (not_le.1 hlt))
  have hstable : Effect cfg handler checkpointing r (r.advanceTo n log cps) :=
    .stable n log cps trivial hmod (not_le.1 hlt) hle hadvanced
  refine meets_ok_bind hcatch (meets_ok_bind hadv ?_)
  refine onStablePointMoved_not_behind handler (hstable.wellFormed hw)
    (Or.inr fun hactive hprimary => ?_)
  have := h hactive hprimary
  show r.lastExecutedSeqNum ≤ max (max r.primaryLastUsedSeqNum n) 0
  lia

/-- Adopting the state of checkpoint `n`. -/
def Scope.ofTransfer (n : SeqNum) : Scope App :=
  { executing with full := True, transfers := fun m => m = n }

/-- No stable checkpoint lets the active primary propose while the state of checkpoint `n` is
    adopted: the windows do not move, they move without an own checkpoint, or the queue is empty. -/
def SilentTransfer (cfg : ReplicaConfig) (n : SeqNum) (r : ReplicaImp App) : Prop :=
  r.currentViewIsActive = true → r.isCurrentPrimary cfg = true →
    n ≤ r.lastStableSeqNum + kWorkWindowSize ∨ r.requestsQueueOfPrimary = [] ∨
      r.hasOwnCheckpoint cfg (n - kWorkWindowSize) = .ok false

theorem SilentTransfer.mayPropose (h : SilentTransfer cfg n r) {cm : ClientsManager} {log : MainLog}
    {cps : CheckpointsLog} (hgt : r.lastStableSeqNum + kWorkWindowSize < n)
    (hown : r.hasOwnCheckpoint cfg (n - kWorkWindowSize) = .ok true) :
    MayPropose cfg ((r.adopt n cm).advanceTo (n - kWorkWindowSize) log cps) := by
  by_cases hlead : r.currentViewIsActive = true ∧ r.isCurrentPrimary cfg = true
  · rcases h hlead.1 hlead.2 with hle | hqueue | hno
    · lia
    · exact Or.inl hqueue
    · rw [hown] at hno
      simp at hno
  · exact Or.inr fun hactive hprimary => absurd ⟨hactive, hprimary⟩ hlead

theorem moveWindowsTo_not_behind (handler : RequestsHandler App) (hw : WellFormed cfg r)
    (hmod : n % checkpointWindowSize = 0) (hlt : r.lastExecutedSeqNum < n)
    (hsilent : SilentTransfer cfg n r) {cm : ClientsManager}
    (hcm : r.execution.clientsManager.loadInfoFromReservedPages cfg = .ok cm) :
    Meets (· ≠ .primaryBehindExecution) (fun _ => True) ((r.adopt n cm).moveWindowsTo cfg env n) := by
  by_cases hgt : r.lastStableSeqNum + kWorkWindowSize < n
  · obtain ⟨b, log, cps, hb, hjump, heq⟩ : ∃ b log cps, _ ∧ Effect cfg handler (ofTransfer n) r
        ((r.adopt n cm).advanceTo (n - kWorkWindowSize) log cps) ∧ _ :=
      moveWindowsTo_above trivial rfl hw hmod hlt hcm hgt
    rw [heq]
    refine meets_ite (fun hown => ?_) fun _ => .ok trivial
    subst hown
    exact onStablePointMoved_not_behind handler (hjump.wellFormed hw) (hsilent.mayPropose hgt hb)
  · rw [show (r.adopt n cm).moveWindowsTo cfg env n = .ok (r.adopt n cm) from if_neg hgt]
    exact .ok trivial

theorem adoptNewState_not_behind (handler : RequestsHandler App) (hw : WellFormed cfg r)
    (hmod : n % checkpointWindowSize = 0) (hlt : r.lastExecutedSeqNum < n)
    (hsilent : SilentTransfer cfg n r) :
    Meets (· ≠ .primaryBehindExecution) (fun _ => True) (r.adoptNewState cfg env n) := by
  unfold adoptNewState
  have hload : Meets (· ≠ .primaryBehindExecution) (fun _ => True)
      (r.execution.clientsManager.loadInfoFromReservedPages cfg) :=
    Meets.weaken (loadInfoFromReservedPages_asserts _) (by rintro e rfl; simp)
  refine hload.bind_eq fun cm hcm _ => ?_
  refine (moveWindowsTo_not_behind handler hw hmod hlt hsilent hcm).bind_eq fun r₁ hr₁ _ => ?_
  have hmoved : Meets (Fails cfg handler env (ofTransfer n) r) _ _ :=
    moveWindowsTo_meets trivial trivial hw rfl hmod hlt hcm
  obtain ⟨he, hexec⟩ := hmoved.of_ok hr₁
  have hw₁ := he.wellFormed hw
  have hholds : r₁.checkpointsLog.Holds n := by
    refine hw₁.holds_checkpoint hmod ?_ ?_
    · rw [← hexec]
      exact hw₁.stable_le
    · rw [← hexec]
      exact hw₁.exec_le
  exact meets_get hholds (.ok trivial)

theorem takeNewState_not_behind (handler : RequestsHandler App) (hw : WellFormed cfg r)
    (h : Leads cfg 0 r) (hsilent : SilentTransfer cfg n r) :
    Meets (· ≠ .primaryBehindExecution) (fun _ => True) (r.takeNewState cfg env n) := by
  unfold takeNewState
  refine meets_require_bind (fun _ => by simp) fun hmod => ?_
  -- the state after the first block leads up to `n`
  have hadopt : Meets (· ≠ .primaryBehindExecution)
      (fun r₁ => WellFormed cfg r₁ ∧ n ≤ r₁.lastExecutedSeqNum ∧ Leads cfg n r₁)
      (if r.lastExecutedSeqNum < n then r.adoptNewState cfg env n else pure r) := by
    refine meets_ite (fun hlt => ?_) fun hge => .ok ⟨hw, not_lt.1 hge, fun hactive hprimary => ?_⟩
    · have hmeets : Meets (Fails cfg handler env (ofTransfer n) r) _ _ :=
        adoptNewState_meets trivial trivial hw rfl hmod hlt
      cases hx : r.adoptNewState cfg env n with
      | error e => exact .error ((adoptNewState_not_behind handler hw hmod hlt hsilent).of_error hx)
      | ok r₁ =>
        obtain ⟨he, hexec⟩ := hmeets.of_ok hx
        refine .ok ⟨he.wellFormed hw, le_of_eq hexec.symm, fun _ _ => ?_⟩
        rw [hexec]
        simp
    · have := h.le hw hactive hprimary
      lia
  refine hadopt.bind fun r₁ hr₁ => ?_
  obtain ⟨hw₁, hle, hleads⟩ := hr₁
  have htable : Meets (· ≠ .primaryBehindExecution) (fun _ => True)
      (r₁.checkTableOfStableCheckpoints cfg env n) := by
    unfold checkTableOfStableCheckpoints
    refine meets_ite (fun _ => .ok trivial) fun _ => ?_
    have hkept : ∀ table, Effects cfg handler checkpointing r₁
        { r₁ with tableOfStableCheckpoints := table } := fun table =>
      .bookkeeping rfl (fun _ hm => Or.inl hm) (Or.inr rfl)
    have hstable : ∀ table, Meets (· ≠ .primaryBehindExecution) (fun _ => True)
        ({ r₁ with tableOfStableCheckpoints := table }.onSeqNumIsStable cfg env n) := fun table =>
      onSeqNumIsStable_not_behind handler ((hkept table).wellFormed hw₁) hmod hle hleads
    exact (meets_ite (fun _ => hstable _) fun _ => .ok trivial).bind fun _ _ => .ok trivial
  exact htable.bind fun _ _ => .ok trivial

/-- **A completed transfer keeps the lead of the primary.** -/
theorem onTransferringCompleteImp_leads (hw : WellFormed cfg r) (h : Leads cfg 0 r)
    (hsilent : SilentTransfer cfg n r) :
    Meets (· ≠ .primaryBehindExecution) (Leads cfg 0)
      (r.onTransferringCompleteImp cfg handler env n) := by
  unfold onTransferringCompleteImp
  refine (takeNewState_not_behind handler hw h hsilent).bind_eq fun p hp _ => ?_
  have hmeets : Meets (Fails cfg handler env (ofTransfer n) r) _ _ :=
    takeNewState_meets trivial trivial hw rfl
  obtain ⟨he, hused, -⟩ := hmeets.of_ok hp
  have hw₁ := he.wellFormed hw
  -- the counter of the primary has reached the new state, so nothing is left apart
  have hleads : Leads cfg 0 p.1 := by
    intro hactive hprimary
    have hupTo : Leads cfg n p.1 := by
      refine he.leads hw (fun _ _ => False.elim) (fun m hm => le_of_eq hm) fun ha hp => ?_
      have := h.le hw ha hp
      lia
    have := hupTo hactive hprimary
    lia
  have hexecute : Does cfg handler env executing p.1 (p.1.executeAfterTransfer cfg handler env) :=
    executeAfterTransfer_does trivial trivial hw₁
  have hkeeps : Meets (· ≠ .primaryBehindExecution) (Leads cfg 0)
      (p.1.executeAfterTransfer cfg handler env) := by
    refine (Meets.mono hexecute fun r₂ he₂ => ?_).weaken ?_
    · exact he₂.leads hw₁ (fun _ _ => False.elim) (fun _ => False.elim) hleads
    · rintro e hfails rfl
      exact Fails.not_behind hw₁ (fun _ _ => False.elim) (fun _ => False.elim) hleads hfails
  refine hkeeps.bind fun r₂ hr₂ => .ok ?_
  split
  · exact hr₂
  · exact hr₂

/-! ### Runs -/

/-- What a step of an active primary must meet: a view is entered only if its restrictions cover what
    was executed, and a transferred state is adopted silently. -/
structure KeepsLead (cfg : ReplicaConfig) (r : ReplicaImp App) (i : Input App) : Prop where
  enters : ∀ r₁ vm, EntersIn cfg r i.2 r₁ vm → r₁.isCurrentPrimary cfg = true → Covered cfg r₁ vm
  transfers : ∀ k app pages, i.2 = .transferringComplete k app pages →
    SilentTransfer cfg (k * checkpointWindowSize) r

theorem step_leads (hw : WellFormed cfg r) (h : Leads cfg 0 r) {i : Input App}
    (hkeeps : KeepsLead cfg r i) :
    Meets (· ≠ .primaryBehindExecution) (Leads cfg 0) (r.step cfg handler i.1 i.2) := by
  obtain ⟨env, e⟩ := i
  by_cases htransfer : ∃ k app pages, e = .transferringComplete k app pages
  · obtain ⟨k, app, pages, rfl⟩ := htransfer
    refine meets_ite (fun _ => .ok h) fun _ => ?_
    have hfetch : Effect cfg handler (ofEvent cfg r (.transferringComplete k app pages)) r
        (r.withTransferredState app pages) := .fetch app pages trivial ⟨k, rfl⟩
    exact onTransferringCompleteImp_leads (hfetch.wellFormed hw) h (hkeeps.transfers k app pages rfl)
  · have hnone : ∀ m, (ofEvent cfg r e).transfers m → m ≤ 0 := by
      rintro m ⟨k, app, pages, he, -⟩
      exact absurd ⟨k, app, pages, he⟩ htransfer
    refine (Meets.mono (step_does hw e) fun r₁ he => ?_).weaken ?_
    · exact he.leads hw hkeeps.enters hnone h
    · rintro f hfails rfl
      exact Fails.not_behind hw hkeeps.enters hnone h hfails

/-- **The active primary never falls behind its own execution**, in every run whose steps keep its
    lead. -/
theorem primary_leads_of_run {app : App} {replyBuffer : Bytes}
    (h : RunsTo cfg handler (KeepsLead cfg) (start app replyBuffer) r) :
    (r.currentViewIsActive = true → r.isCurrentPrimary cfg = true →
      r.lastExecutedSeqNum ≤ r.primaryLastUsedSeqNum) ∧
    ∀ i, KeepsLead cfg r i → r.step cfg handler i.1 i.2 ≠ .error .primaryBehindExecution := by
  obtain ⟨hw, hleads⟩ : WellFormed cfg r ∧ Leads cfg 0 r := by
    refine Reaches.invariant (fun r₁ => WellFormed cfg r₁ ∧ Leads cfg 0 r₁)
      ⟨start_wellFormed app replyBuffer, fun _ _ => le_max_left 0 0⟩ ?_ h
    rintro r₁ i r₂ ⟨hw₁, hleads⟩ hkeeps hnext
    exact ⟨(effects_of_next hw₁ hnext).wellFormed hw₁,
      (step_leads hw₁ hleads hkeeps).of_ok (of_next hnext)⟩
  refine ⟨hleads.le hw, fun i hkeeps hfail => ?_⟩
  exact (step_leads hw hleads hkeeps).of_error hfail rfl

/-- Steps that keep the lead whatever the state is, but for the queue. -/
def keepsLeadTest (r : ReplicaImp Unit) (i : Input Unit) : Bool :=
  match i.2 with
  | .receive (.checkpoint _) => true
  | .transferringComplete _ _ _ => r.requestsQueueOfPrimary.isEmpty
  | _ => false

theorem keepsLead_of_test (r : ReplicaImp Unit) (i : Input Unit) (h : keepsLeadTest r i = true) :
    KeepsLead cfg r i := by
  obtain ⟨env, e⟩ := i
  unfold keepsLeadTest at h
  split at h
  next m he =>
    refine ⟨fun r₁ vm hin => ?_, fun k app pages hk => absurd (he.symm.trans hk) (by simp)⟩
    obtain ⟨hasks, -⟩ := hin
    rw [show e = .receive (.checkpoint m) from he] at hasks
    cases hasks
  next k app pages he =>
    refine ⟨fun r₁ vm hin => ?_, fun k' app' pages' _ _ _ => Or.inr (Or.inl (by simpa using h))⟩
    obtain ⟨hasks, -⟩ := hin
    rw [show e = .transferringComplete k app pages from he] at hasks
    cases hasks
  next => simp at h

set_option maxRecDepth 4000 in
/-- The primary of view 0 fetches the state of checkpoint 600. -/
theorem primary_leads_of_transferTo600 :
    ∃ r, RunsTo (fourReplicas 0) constantReply (KeepsLead (fourReplicas 0)) (start () []) r ∧
      r.isCurrentPrimary (fourReplicas 0) = true ∧ r.lastExecutedSeqNum = 600 ∧
      r.lastExecutedSeqNum ≤ r.primaryLastUsedSeqNum := by
  obtain ⟨r, hruns, hactive, hprimary, hexec⟩ :
      ∃ r, RunsTo (fourReplicas 0) constantReply (KeepsLead (fourReplicas 0)) (start () []) r ∧
        r.currentViewIsActive = true ∧ r.isCurrentPrimary (fourReplicas 0) = true ∧
        r.lastExecutedSeqNum = 600 :=
    exists_reaches_of_test keepsLeadTest keepsLead_of_test
      [({}, .receive (.checkpoint ⟨1, 450, 7#256, true⟩)),
        ({}, .receive (.checkpoint ⟨2, 450, 7#256, true⟩)),
        ({}, .transferringComplete 4 () fun _ _ => 0)] (by decide +kernel)
  exact ⟨r, hruns, hprimary, hexec, (primary_leads_of_run hruns).1 hactive hprimary⟩

/-- Two view change messages for view 1, without elements. -/
def enterView1 : List (Input Unit) :=
  [({}, .receive (.viewChange ⟨0, 1, 300, []⟩)), ({}, .receive (.viewChange ⟨2, 1, 300, []⟩))]

set_option maxRecDepth 4000 in
/-- Replica 1 fetches the state of checkpoint 600, with 300 as its last stable point, and enters
    view 1 with messages without elements. Its counter is then 300, and the next request fails. -/
theorem primary_behind_after_transferTo600 :
    ∃ r, Reachable (fourReplicas 1) constantReply r ∧ r.currentViewIsActive = true ∧
      r.isCurrentPrimary (fourReplicas 1) = true ∧ r.primaryLastUsedSeqNum = 300 ∧
      r.lastExecutedSeqNum = 600 ∧
      r.step (fourReplicas 1) constantReply {} (.receive (.clientRequest 4 ⟨4, 1, false, [1], 0⟩)) =
        .error .primaryBehindExecution := by
  obtain ⟨r, hreach, hactive, hprimary, hused, hexec, hfails⟩ :
      ∃ r, Reachable (fourReplicas 1) constantReply r ∧ r.currentViewIsActive = true ∧
        r.isCurrentPrimary (fourReplicas 1) = true ∧ r.primaryLastUsedSeqNum = 300 ∧
        r.lastExecutedSeqNum = 600 ∧ failsWith .primaryBehindExecution
          (r.step (fourReplicas 1) constantReply {}
            (.receive (.clientRequest 4 ⟨4, 1, false, [1], 0⟩))) = true :=
    exists_reachable () [] (transferTo600 ++ enterView1) (by decide +kernel)
  exact ⟨r, hreach, hactive, hprimary, hused, hexec, eq_error_of_failsWith hfails⟩

end ConcordBft.ReplicaImp
