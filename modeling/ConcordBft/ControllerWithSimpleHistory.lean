import ConcordBft.ReplicaImp.Runs

set_option autoImplicit false

/-! # The controller of the commit paths (`ControllerWithSimpleHistory.cpp`)

The controller of a primary watches a window of 64 numbers. When the last of them is executed, it
chooses the path on which new PrePrepares are tried first, and moves to the next 64 numbers. The
clock, and the time to start the slow path that is computed from it, are left out. -/

namespace ConcordBft

open Checked

/-- What was seen of a number. -/
structure SeqNoInfo where
  switchToSlowPath : Bool := false
  replicas : List ReplicaId := []
deriving DecidableEq, Repr, Inhabited

/-- The history from which the first path is chosen. -/
structure ControllerWithSimpleHistory where
  recentActivity : SequenceWithActiveWindow 64 1 SeqNoInfo
  currentFirstPath : CommitPath := .OPTIMISTIC_FAST
  currentView : ViewNum
  isPrimary : Bool

namespace ControllerWithSimpleHistory

def EvaluationPeriod : ℕ := 64

variable (cfg : ReplicaConfig) (k : ControllerWithSimpleHistory)

/-- `recentActivity.currentActiveWindow().second` -/
def lastRelevantSeqNum : SeqNum := k.recentActivity.beginningOfActiveWindow + EvaluationPeriod - 1

/-- The first number of the next period. -/
def nextFirstRelevantSeqNum (s : SeqNum) : SeqNum :=
  if s % EvaluationPeriod = 0 then s + 1
  else s / EvaluationPeriod * EvaluationPeriod + EvaluationPeriod + 1

def onBecomePrimary (s : SeqNum) : ControllerWithSimpleHistory :=
  { k with recentActivity := .resetAll (nextFirstRelevantSeqNum s) }

/-- The controller is told about a view. -/
def onNewView (v : ViewNum) (s : SeqNum) : Except Failure ControllerWithSimpleHistory := do
  Assert (k.currentView ≤ v)
  let k := { k with currentView := v, isPrimary := cfg.primaryOfView v = cfg.myId }
  pure (if k.isPrimary then k.onBecomePrimary s else k)

/-- How many numbers of the window have a property. -/
def cycles (p : SeqNoInfo → Bool) : ℕ :=
  (seqNums k.recentActivity.beginningOfActiveWindow k.lastRelevantSeqNum).countP fun i =>
    p (k.recentActivity.lookup i)

/-- The path that an evaluation chooses. The factors of the source are 0.95 and 0.85. -/
def nextFirstPath : CommitPath :=
  let onlyOptimisticFast := cfg.cVal = 0
  if k.currentFirstPath = .SLOW then
    let full := k.cycles fun s => s.replicas.length == cfg.numberOfReplicas - 1
    let enough := k.cycles fun s => s.replicas.length == cfg.numberOfReplicas - 1 ||
      3 * cfg.fVal + cfg.cVal ≤ s.replicas.length
    if 95 * EvaluationPeriod ≤ 100 * full then .OPTIMISTIC_FAST
    else if ¬ onlyOptimisticFast ∧ 85 * EvaluationPeriod ≤ 100 * enough then .FAST_WITH_THRESHOLD
    else .SLOW
  else
    let successfulFastPaths := k.cycles fun s => !s.switchToSlowPath
    if 100 * successfulFastPaths < 85 * EvaluationPeriod then
      if ¬ onlyOptimisticFast ∧ k.currentFirstPath = .OPTIMISTIC_FAST then .FAST_WITH_THRESHOLD
      else .SLOW
    else k.currentFirstPath

/-- The path is assigned only if it is another one, so this is the flag that is returned. -/
def onEndOfEvaluationPeriod : ControllerWithSimpleHistory × Bool :=
  ({ k with
      currentFirstPath := k.nextFirstPath cfg
      recentActivity := .resetAll (k.lastRelevantSeqNum + 1) },
    k.nextFirstPath cfg != k.currentFirstPath)

def onNewSeqNumberExecution (n : SeqNum) : ControllerWithSimpleHistory × Bool :=
  if k.isPrimary = false ∨ k.recentActivity.insideActiveWindow n = false then (k, false)
  else if n = k.lastRelevantSeqNum then k.onEndOfEvaluationPeriod cfg
  else (k, false)

/-- The fast path of a number was given up. -/
def onStartingSlowCommit (n : SeqNum) : ControllerWithSimpleHistory :=
  if k.isPrimary = false ∨ k.recentActivity.insideActiveWindow n = false ∨
    k.currentFirstPath = .SLOW then k
  else
    let s := { k.recentActivity.lookup n with switchToSlowPath := true }
    { k with recentActivity := k.recentActivity.set n s }

def onMessage (m : SignedSharePartial) : ControllerWithSimpleHistory :=
  let s := k.recentActivity.lookup m.seqNumber
  if k.isPrimary = false ∨ k.currentFirstPath ≠ .SLOW ∨
    k.recentActivity.insideActiveWindow m.seqNumber = false ∨ s.switchToSlowPath = true ∨
    m.senderId ∈ s.replicas then k
  else
    let s := { s with replicas := m.senderId :: s.replicas }
    { k with recentActivity := k.recentActivity.set m.seqNumber s }

end ControllerWithSimpleHistory

/-! ## The replica around the controller -/

/-- A replica, as far as its controller depends on it. -/
structure Controlled where
  controller : ControllerWithSimpleHistory
  curView : ViewNum := 0
  currentViewIsActive : Bool := true
  lastStableSeqNum : SeqNum := 0
  lastExecutedSeqNum : SeqNum := 0

/-- What happens to a replica with a controller. -/
inductive ControllerEvent where
  | executeRequestsInPrePrepareMsg
  | onTransferringComplete (newStateCheckpoint : SeqNum)
  | onSeqNumIsStable (newStableSeqNum : SeqNum)
  | MoveToHigherView (nextView : ViewNum)
  /-- The view is entered; its PrePrepares end with this number, if there are any. -/
  | onNewView (lastPPSeq : Option SeqNum)
  | onStartingSlowCommit (n : SeqNum)
  | onMessage (m : SignedSharePartial)

namespace Controlled

variable (cfg : ReplicaConfig) (st : Controlled)

/-- A replica that starts. -/
def start : Controlled where
  controller :=
    { recentActivity := .resetAll 1, currentView := 0, isPrimary := cfg.primaryOfView 0 = cfg.myId }

/-- `primaryLastUsedSeqNum` after a view has been entered. -/
def lastUsedOnEntry (lastPPSeq : Option SeqNum) : SeqNum :=
  lastPPSeq.getD st.lastStableSeqNum

/-- What the handlers do to the controller and to the counters; `none` where an assertion fails. -/
def next : ControllerEvent → Option Controlled
  | .executeRequestsInPrePrepareMsg =>
    if st.currentViewIsActive then some { st with
      lastExecutedSeqNum := st.lastExecutedSeqNum + 1
      controller := (st.controller.onNewSeqNumberExecution cfg (st.lastExecutedSeqNum + 1)).1 }
    else none
  | .onTransferringComplete n =>
    if n % checkpointWindowSize = 0 then some { st with
      lastExecutedSeqNum := max st.lastExecutedSeqNum n
      lastStableSeqNum := if st.lastExecutedSeqNum < n then
        max st.lastStableSeqNum (n - kWorkWindowSize) else st.lastStableSeqNum }
    else none
  | .onSeqNumIsStable n =>
    if n % checkpointWindowSize = 0 then some { st with
      lastStableSeqNum := max st.lastStableSeqNum n
      lastExecutedSeqNum := if st.lastStableSeqNum < n then max st.lastExecutedSeqNum n
        else st.lastExecutedSeqNum }
    else none
  | .MoveToHigherView nextView =>
    if st.curView < nextView then some { st with curView := nextView, currentViewIsActive := false }
    else none
  | .onNewView lastPPSeq =>
    if st.currentViewIsActive then none
    else (st.controller.onNewView cfg st.curView (st.lastUsedOnEntry lastPPSeq)).toOption.map
      fun k => { st with controller := k, currentViewIsActive := true }
  | .onStartingSlowCommit n => some { st with controller := st.controller.onStartingSlowCommit n }
  | .onMessage m => some { st with controller := st.controller.onMessage m }

/-- Is the replica the primary of an active view? -/
def Leads : Prop :=
  st.currentViewIsActive = true ∧ cfg.primaryOfView st.curView = cfg.myId

/-- The next evaluation is still to come. -/
def Evaluates : Prop :=
  st.Leads cfg → st.lastExecutedSeqNum < st.controller.lastRelevantSeqNum

/-- Nobody but the execution of numbers gets to the end of the window: neither a checkpoint of a
    primary nor a view that it enters behind what it has executed. -/
def Timely : ControllerEvent → Prop
  | .onTransferringComplete n => st.Leads cfg → n < st.controller.lastRelevantSeqNum
  | .onSeqNumIsStable n => st.Leads cfg → n < st.controller.lastRelevantSeqNum
  | .onNewView lastPPSeq => cfg.primaryOfView st.curView = cfg.myId → st.lastExecutedSeqNum <
      ControllerWithSimpleHistory.nextFirstRelevantSeqNum (st.lastUsedOnEntry lastPPSeq) +
        ControllerWithSimpleHistory.EvaluationPeriod - 1
  | _ => True

instance : Decidable (st.Leads cfg) := inferInstanceAs (Decidable (_ ∧ _))

instance : Decidable (st.Evaluates cfg) := inferInstanceAs (Decidable (_ → _))

instance (ev : ControllerEvent) : Decidable (st.Timely cfg ev) :=
  match ev with
  | .onTransferringComplete _ | .onSeqNumIsStable _ | .onNewView _ =>
    inferInstanceAs (Decidable (_ → _))
  | .executeRequestsInPrePrepareMsg | .MoveToHigherView _ | .onStartingSlowCommit _ | .onMessage _ =>
    inferInstanceAs (Decidable True)

/-! ## Runs -/

section Runs

open ControllerWithSimpleHistory

variable {cfg st} {st' : Controlled} {k : ControllerWithSimpleHistory}

/-- The controller knows which views the replica leads. -/
structure Inv (cfg : ReplicaConfig) (st : Controlled) : Prop where
  isPrimary_iff : st.controller.isPrimary = true ↔
    cfg.primaryOfView st.controller.currentView = cfg.myId
  view_le : st.controller.currentView ≤ st.curView
  view_eq : st.currentViewIsActive = true → st.controller.currentView = st.curView
  stable_le : st.lastStableSeqNum ≤ st.lastExecutedSeqNum

theorem inv_start : Inv cfg (start cfg) :=
  ⟨decide_eq_true_iff, le_refl _, fun _ => rfl, le_refl _⟩

/-- The controller has the same view and window as before. -/
structure SameWindow (k k' : ControllerWithSimpleHistory) : Prop where
  isPrimary_eq : k'.isPrimary = k.isPrimary
  view_eq : k'.currentView = k.currentView
  last_eq : k'.lastRelevantSeqNum = k.lastRelevantSeqNum

theorem sameWindow_onStartingSlowCommit (k : ControllerWithSimpleHistory) (n : SeqNum) :
    SameWindow k (k.onStartingSlowCommit n) := by
  unfold onStartingSlowCommit
  split_ifs <;> exact ⟨rfl, rfl, rfl⟩

theorem sameWindow_onMessage (k : ControllerWithSimpleHistory) (m : SignedSharePartial) :
    SameWindow k (k.onMessage m) := by
  unfold onMessage
  dsimp only
  split_ifs <;> exact ⟨rfl, rfl, rfl⟩

theorem Inv.withController (h : Inv cfg st) (hev : st.Evaluates cfg)
    (hk : SameWindow st.controller k) :
    Inv cfg { st with controller := k } ∧ Evaluates cfg { st with controller := k } := by
  refine ⟨{ h with isPrimary_iff := ?_, view_le := ?_, view_eq := ?_ }, fun hleads => ?_⟩
  · rw [hk.isPrimary_eq, hk.view_eq]
    exact h.isPrimary_iff
  · exact hk.view_eq ▸ h.view_le
  · exact hk.view_eq ▸ h.view_eq
  · exact hk.last_eq ▸ hev hleads

/-- Another number than the last one leaves the controller as it is. -/
theorem onNewSeqNumberExecution_of_ne {n : SeqNum} (h : n ≠ k.lastRelevantSeqNum) :
    (k.onNewSeqNumberExecution cfg n).1 = k := by
  unfold onNewSeqNumberExecution
  split_ifs <;> rfl

/-- The execution of the last number evaluates the window. -/
theorem onNewSeqNumberExecution_last (h : k.isPrimary = true) :
    k.onNewSeqNumberExecution cfg k.lastRelevantSeqNum = k.onEndOfEvaluationPeriod cfg := by
  have hin : k.recentActivity.insideActiveWindow k.lastRelevantSeqNum = true := by
    simp only [SequenceWithActiveWindow.insideActiveWindow, lastRelevantSeqNum, EvaluationPeriod]
    lia
  simp [onNewSeqNumberExecution, h, hin]

theorem onNewView_eq {v : ViewNum} (h : k.currentView ≤ v) (s : SeqNum) :
    k.onNewView cfg v s = .ok { k with
      currentView := v
      isPrimary := cfg.primaryOfView v = cfg.myId
      recentActivity := if cfg.primaryOfView v = cfg.myId then .resetAll (nextFirstRelevantSeqNum s)
        else k.recentActivity } := by
  unfold ControllerWithSimpleHistory.onNewView
  split_ifs <;> simp_all [onBecomePrimary] <;> rfl

theorem Inv.execute (h : Inv cfg st) (hev : st.Evaluates cfg)
    (hnext : st.next cfg .executeRequestsInPrePrepareMsg = some st') :
    Inv cfg st' ∧ st'.Evaluates cfg := by
  unfold Controlled.next at hnext
  split_ifs at hnext with hactive
  obtain rfl := Option.some.inj hnext
  have hle : st.lastStableSeqNum ≤ st.lastExecutedSeqNum + 1 := le_trans h.stable_le (by lia)
  by_cases hlast : st.lastExecutedSeqNum + 1 = st.controller.lastRelevantSeqNum
  · rw [hlast]
    by_cases hprimary : st.controller.isPrimary = true
    · rw [onNewSeqNumberExecution_last hprimary, ← hlast]
      refine ⟨{ h with stable_le := hle }, fun _ => ?_⟩
      simp only [onEndOfEvaluationPeriod, lastRelevantSeqNum, EvaluationPeriod,
        SequenceWithActiveWindow.resetAll] at hlast ⊢
      lia
    · have hsame : st.controller.onNewSeqNumberExecution cfg st.controller.lastRelevantSeqNum =
          (st.controller, false) := if_pos (Or.inl (by simpa using hprimary))
      rw [hsame, ← hlast]
      exact ⟨{ h with stable_le := hle }, fun hleads =>
        absurd (h.isPrimary_iff.2 (h.view_eq hactive ▸ hleads.2)) hprimary⟩
  · rw [onNewSeqNumberExecution_of_ne hlast]
    exact ⟨{ h with stable_le := hle }, fun hleads => lt_of_le_of_ne (hev hleads) hlast⟩

/-- **One event** leaves the next evaluation to come exactly if it is timely. -/
theorem Inv.next (h : Inv cfg st) (hev : st.Evaluates cfg) {ev : ControllerEvent}
    (hnext : st.next cfg ev = some st') :
    Inv cfg st' ∧ (st'.Evaluates cfg ↔ st.Timely cfg ev) := by
  have hstable := h.stable_le
  cases ev with
  | executeRequestsInPrePrepareMsg =>
    obtain ⟨hinv, hyes⟩ := h.execute hev hnext
    exact ⟨hinv, iff_of_true hyes trivial⟩
  | onTransferringComplete n =>
    dsimp only [Controlled.next] at hnext
    split_ifs at hnext with hn hlt
    · obtain rfl := Option.some.inj hnext
      refine ⟨{ h with stable_le := ?_ }, forall_congr' fun hleads => ?_⟩
      · simp only [kWorkWindowSize]
        lia
      · exact max_lt_iff.trans (and_iff_right (hev hleads))
    · obtain rfl := Option.some.inj hnext
      refine ⟨{ h with stable_le := le_trans hstable (le_max_left _ _) }, ?_⟩
      exact forall_congr' fun hleads => max_lt_iff.trans (and_iff_right (hev hleads))
  | onSeqNumIsStable n =>
    dsimp only [Controlled.next] at hnext
    split_ifs at hnext with hn hlt
    · obtain rfl := Option.some.inj hnext
      refine ⟨{ h with stable_le := max_le_max_right n hstable }, ?_⟩
      exact forall_congr' fun hleads => max_lt_iff.trans (and_iff_right (hev hleads))
    · obtain rfl := Option.some.inj hnext
      have hle : n ≤ st.lastExecutedSeqNum := le_trans (not_lt.1 hlt) hstable
      refine ⟨{ h with stable_le := max_le hstable hle }, ?_⟩
      exact forall_congr' fun hleads => iff_of_true (hev hleads) (lt_of_le_of_lt hle (hev hleads))
  | MoveToHigherView nextView =>
    dsimp only [Controlled.next] at hnext
    split_ifs at hnext with hlt
    obtain rfl := Option.some.inj hnext
    refine ⟨{ h with view_le := le_trans h.view_le (le_of_lt hlt), view_eq := by simp }, ?_⟩
    exact iff_of_true (fun hleads => absurd hleads.1 (by simp)) trivial
  | onNewView lastPPSeq =>
    dsimp only [Controlled.next] at hnext
    split_ifs at hnext with hactive
    rw [onNewView_eq h.view_le] at hnext
    obtain rfl := Option.some.inj hnext
    refine ⟨⟨decide_eq_true_iff, le_refl _, fun _ => rfl, h.stable_le⟩, ?_⟩
    -- the view is active, so what is left of `Leads` is that the replica is its primary
    refine (imp_congr_left (and_iff_right rfl)).trans (forall_congr' fun hprimary => ?_)
    simp only [if_pos hprimary]
    rfl
  | onStartingSlowCommit n =>
    obtain rfl := Option.some.inj hnext
    obtain ⟨hinv, hyes⟩ := h.withController hev (sameWindow_onStartingSlowCommit _ n)
    exact ⟨hinv, iff_of_true hyes trivial⟩
  | onMessage m =>
    obtain rfl := Option.some.inj hnext
    obtain ⟨hinv, hyes⟩ := h.withController hev (sameWindow_onMessage _ m)
    exact ⟨hinv, iff_of_true hyes trivial⟩

/-- Numbers other than the last one of the window leave the controller as it is. -/
theorem runSteps_execute (st : Controlled) (hactive : st.currentViewIsActive = true) (k : ℕ)
    (hout : st.controller.lastRelevantSeqNum ≤ st.lastExecutedSeqNum ∨
      st.lastExecutedSeqNum + k < st.controller.lastRelevantSeqNum) :
    Machine.runSteps (Controlled.next cfg) st (List.replicate k .executeRequestsInPrePrepareMsg) =
      some { st with lastExecutedSeqNum := st.lastExecutedSeqNum + k } := by
  induction k generalizing st with
  | zero => simp [Machine.runSteps]
  | succ k ih =>
    have hne : st.lastExecutedSeqNum + 1 ≠ st.controller.lastRelevantSeqNum := by lia
    have hstep : st.next cfg .executeRequestsInPrePrepareMsg =
        some { st with lastExecutedSeqNum := st.lastExecutedSeqNum + 1 } := by
      simp [Controlled.next, hactive, onNewSeqNumberExecution_of_ne hne]
    rw [List.replicate_succ, Machine.runSteps, hstep]
    refine (ih { st with lastExecutedSeqNum := st.lastExecutedSeqNum + 1 } hactive
      (hout.imp (fun h => ?_) fun h => ?_)).trans ?_
    · lia
    · lia
    · push_cast
      rw [add_assoc, add_comm 1]

/-- As long as execution continues, the window of a primary is evaluated. -/
theorem Inv.runSteps_evaluates (h : Inv cfg st) (hleads : st.Leads cfg) {k : ℕ}
    (hk : st.lastExecutedSeqNum + k + 1 = st.controller.lastRelevantSeqNum) :
    Machine.runSteps (Controlled.next cfg) st
        (List.replicate (k + 1) .executeRequestsInPrePrepareMsg) =
      some { st with
        lastExecutedSeqNum := st.controller.lastRelevantSeqNum
        controller := (st.controller.onEndOfEvaluationPeriod cfg).1 } := by
  have hprimary : st.controller.isPrimary = true :=
    h.isPrimary_iff.2 (h.view_eq hleads.1 ▸ hleads.2)
  rw [List.replicate_succ', Machine.runSteps_append,
    runSteps_execute st hleads.1 k (Or.inr (by lia))]
  simp [Machine.runSteps, Controlled.next, hleads.1, hk, onNewSeqNumberExecution_last hprimary]

/-- **The controller keeps evaluating** as long as no checkpoint and no view takes its primary past
    the window: in every such run the window of a primary ends above what is executed, so that going
    on executing evaluates it, and an event breaks this exactly if it is not timely. -/
theorem evaluates_iff_timely
    (hrun : Machine.Reaches (Controlled.next cfg) (Timely cfg) (start cfg) st) :
    st.Evaluates cfg ∧
      (∀ ev st', st.next cfg ev = some st' → (st'.Evaluates cfg ↔ st.Timely cfg ev)) ∧
      (st.Leads cfg → ∃ k : ℕ, Machine.runSteps (Controlled.next cfg) st
          (List.replicate k .executeRequestsInPrePrepareMsg) =
        some { st with
          lastExecutedSeqNum := st.controller.lastRelevantSeqNum
          controller := (st.controller.onEndOfEvaluationPeriod cfg).1 }) := by
  have hinv : Inv cfg st ∧ st.Evaluates cfg := by
    refine hrun.invariant (fun u => Inv cfg u ∧ u.Evaluates cfg) ⟨inv_start, fun _ => ?_⟩ ?_
    · show (0 : ℤ) < 1 + 64 - 1
      decide
    · rintro u ev u' ⟨hu, hev⟩ htimely hnext
      obtain ⟨hinv, hiff⟩ := hu.next hev hnext
      exact ⟨hinv, hiff.2 htimely⟩
  obtain ⟨hinv, hev⟩ := hinv
  refine ⟨hev, fun ev st' hnext => (hinv.next hev hnext).2, fun hleads => ?_⟩
  have hlt := hev hleads
  refine ⟨(st.controller.lastRelevantSeqNum - st.lastExecutedSeqNum - 1).toNat + 1, ?_⟩
  exact hinv.runSteps_evaluates hleads (by lia)

/-- The primary of four replicas executes 150 numbers and their checkpoint gets stable; it leaves its
    view, enters the next one that it leads, and goes on executing. -/
theorem evaluates_iff_timely_nextView :
    ∃ st, Machine.Reaches (next (fourReplicas 0)) (Timely (fourReplicas 0)) (start (fourReplicas 0)) st ∧
      st.Leads (fourReplicas 0) ∧ st.curView = 4 ∧ st.lastExecutedSeqNum = 151 ∧
      st.lastStableSeqNum = 150 ∧ st.Evaluates (fourReplicas 0) := by
  let events : List ControllerEvent := List.replicate 150 .executeRequestsInPrePrepareMsg ++
    [.onSeqNumIsStable 150, .MoveToHigherView 4, .onNewView none, .executeRequestsInPrePrepareMsg]
  obtain ⟨st, hreaches, hleads, hview, hexecuted, hstable⟩ := @Machine.exists_reaches _ _
    (next (fourReplicas 0)) (Timely (fourReplicas 0)) _
    (fun st : Controlled => st.Leads (fourReplicas 0) ∧ st.curView = 4 ∧
      st.lastExecutedSeqNum = 151 ∧ st.lastStableSeqNum = 150) _ (start (fourReplicas 0)) events
    (by decide +kernel)
  exact ⟨st, hreaches, hleads, hview, hexecuted, hstable, (evaluates_iff_timely hreaches).1⟩

/-- The primary of four replicas after a state transfer to 150. -/
def afterTransfer : Controlled :=
  { start (fourReplicas 0) with lastExecutedSeqNum := 150 }

/-- **The controller stops.** The primary of view 0 gets its state up to 150 by a state transfer.
    The window ends at 64, and whatever is executed after this, the controller stays as it is. -/
theorem stops_afterTransfer :
    (start (fourReplicas 0)).next (fourReplicas 0) (.onTransferringComplete 150) =
        some afterTransfer ∧
      afterTransfer.Leads (fourReplicas 0) ∧ ¬ afterTransfer.Evaluates (fourReplicas 0) ∧
      (∀ k : ℕ, Machine.runSteps (next (fourReplicas 0)) afterTransfer
          (List.replicate k .executeRequestsInPrePrepareMsg) =
        some { afterTransfer with lastExecutedSeqNum := 150 + k }) ∧
      ∃ r, ReplicaImp.Reachable (fourReplicas 0) constantReply r ∧ r.lastExecutedSeqNum = 150 ∧
        r.currentViewIsActive = true ∧ r.isCurrentPrimary (fourReplicas 0) = true := by
  have hleads : afterTransfer.Leads (fourReplicas 0) := ⟨rfl, rfl⟩
  refine ⟨rfl, hleads, fun hev => absurd (hev hleads) (by decide), fun k => ?_, ?_⟩
  · exact runSteps_execute afterTransfer rfl k (Or.inl (by decide))
  · exact ReplicaImp.exists_reachable () [] [({}, .receive (.checkpoint ⟨1, 150, 7, true⟩)),
      ({ timeToStartStateTransfer := true }, .receive (.checkpoint ⟨2, 150, 7, true⟩)),
      ({}, .transferringComplete 1 () fun _ _ => 0)] (by decide +kernel)

end Runs

/-! ## The replica of the controller

Whatever a replica does, its view and its counters are those of a run of `next`. -/

section Follows

open ReplicaImp

variable {App : Type} {cfg} {handler : RequestsHandler App} {st : Controlled} {r r' : ReplicaImp App}

/-- The view and the counters of the replica, with a controller that knows of no later view. -/
structure Follows (st : Controlled) (r : ReplicaImp App) : Prop where
  view_eq : st.curView = r.curView
  active_eq : st.currentViewIsActive = r.currentViewIsActive
  stable_eq : st.lastStableSeqNum = r.lastStableSeqNum
  executed_eq : st.lastExecutedSeqNum = r.lastExecutedSeqNum
  controller_le : st.controller.currentView ≤ st.curView

theorem onNewSeqNumberExecution_view (k : ControllerWithSimpleHistory) (n : SeqNum) :
    (k.onNewSeqNumberExecution cfg n).1.currentView = k.currentView := by
  unfold ControllerWithSimpleHistory.onNewSeqNumberExecution
  split_ifs <;> rfl

/-- On entry to a view the controller is told `primaryLastUsedSeqNum` of the replica afterwards. -/
def Told (r' : ReplicaImp App) (st : Controlled) : ControllerEvent → Prop
  | .onNewView lastPPSeq => st.lastUsedOnEntry lastPPSeq = r'.primaryLastUsedSeqNum
  | _ => True

theorem Follows.exists_lastPPSeq (h : Follows st r) (pps : List PrePrepareMsg) :
    ∃ lastPPSeq, st.lastUsedOnEntry lastPPSeq =
      (r.setCountersOfNewView pps).primaryLastUsedSeqNum := by
  unfold setCountersOfNewView
  split_ifs
  · exact ⟨none, h.stable_eq⟩
  · exact ⟨some _, rfl⟩

/-- **One change of the replica** is one event of its controller, or none. -/
theorem Follows.effect {M : Scope App} (hM : ∀ n, M.transfers n → n % checkpointWindowSize = 0)
    (h : Follows st r) (he : Effect cfg handler M r r') :
    ∃ st', Machine.Reaches (next cfg) (Told r') st st' ∧ Follows st' r' := by
  have hstep : ∀ ev st', Told r' st ev → st.next cfg ev = some st' → Follows st' r' →
      ∃ st', Machine.Reaches (next cfg) (Told r') st st' ∧ Follows st' r' :=
    fun ev st' htold hnext hfollows => ⟨st', (Machine.Reaches.refl st).snoc htold hnext, hfollows⟩
  obtain ⟨hview, hactive, hstable, hexecuted, hle⟩ := h
  cases he with
  | stable n log cps hmoves hmod hlt hle' hadvanced =>
    refine hstep (.onSeqNumIsStable n) _ trivial (if_pos hmod) ⟨hview, hactive, ?_, ?_, hle⟩
    · rw [hstable]
      exact max_eq_right hlt.le
    · rw [hstable, hexecuted, if_pos hlt]
      exact max_eq_left hle'
  | execute pp x replies hexecutes hactive' _ hs hready hexec =>
    refine hstep .executeRequestsInPrePrepareMsg _ trivial (if_pos (hactive.trans hactive'))
      ⟨hview, hactive, hstable, ?_, ?_⟩
    · rw [hexecuted]
      rfl
    · rw [onNewSeqNumberExecution_view]
      exact hle
  | transfer n cm hfull hn hlt hcm hle' =>
    refine hstep (.onTransferringComplete n) _ trivial (if_pos (hM n hn)) ⟨hview, hactive, ?_, ?_, hle⟩
    · rw [hexecuted, hstable, if_pos hlt]
      exact max_eq_left (by lia)
    · rw [hexecuted]
      exact max_eq_right hlt.le
  | jump n cm log cps hfull hn hmod hlt hcm hgt hadvanced =>
    refine hstep (.onTransferringComplete n) _ trivial (if_pos hmod) ⟨hview, hactive, ?_, ?_, hle⟩
    · rw [hexecuted, hstable, if_pos hlt]
      exact max_eq_right (by lia)
    · rw [hexecuted]
      exact max_eq_right hlt.le
  | leave v m vm log hfull hleft =>
    have hlt : st.curView < v := hview ▸ hleft.view_lt
    refine hstep (.MoveToHigherView v) _ trivial (if_pos hlt)
      ⟨rfl, ?_, hstable, hexecuted, hle.trans hlt.le⟩
    have hinactive := hleft.inactive
    simp [ReplicaImp.sendToAllOtherReplicas, ReplicaImp.record, ReplicaImp.currentViewIsActive,
      ViewsManager.viewIsActive, ViewsManager.inView, hinactive]
  | enter vm pps log new hfull hm hentered =>
    have hbefore := hentered.enters.before.1
    have hinactive : st.currentViewIsActive = false := by
      rw [hactive]
      simp [ReplicaImp.currentViewIsActive, ViewsManager.viewIsActive, ViewsManager.inView, hbefore]
    obtain ⟨lastPPSeq, htold⟩ :=
      Follows.exists_lastPPSeq ⟨hview, hactive, hstable, hexecuted, hle⟩ pps
    obtain ⟨last, hcounters, -⟩ := counters_of_entry hentered.enters
    obtain ⟨hafter, hactiveView, -⟩ := hentered.enters.after
    refine hstep (.onNewView lastPPSeq) _ htold ((if_neg (by simp [hinactive])).trans (by
      rw [onNewView_eq hle]
      rfl)) ?_
    rw [enterWith, hcounters]
    refine ⟨hview, ?_, hstable, hexecuted, le_refl _⟩
    simp [ReplicaImp.currentViewIsActive, ViewsManager.viewIsActive, ViewsManager.inView, hafter,
      hactiveView]
  | views vm hfull hwf hquiet hwithin =>
    exact ⟨st, .refl st, hview, hactive.trans (hquiet.active r.curView).symm, hstable, hexecuted, hle⟩
  | _ => exact ⟨st, .refl st, hview, hactive, hstable, hexecuted, hle⟩

/-- **Every reachable replica is followed by a run of its controller.** -/
theorem exists_follows (h : Reachable cfg handler r) :
    ∃ st, Machine.Reaches (next cfg) (fun _ _ => True) (start cfg) st ∧ Follows st r := by
  obtain ⟨app, replyBuffer, hruns⟩ := h
  refine (hruns.invariant (fun r => WellFormed cfg r ∧ ∃ st,
    Machine.Reaches (next cfg) (fun _ _ => True) (start cfg) st ∧ Follows st r)
    ⟨start_wellFormed app replyBuffer, _, .refl _, rfl, rfl, rfl, rfl, le_refl _⟩ ?_).2
  rintro r i r' ⟨hw, hfollowed⟩ - hnext
  have heffects := effects_of_next hw hnext
  refine ⟨heffects.wellFormed hw, ?_⟩
  -- by induction on the effects of the step
  clear hnext
  induction heffects with
  | refl => exact hfollowed
  | tail _ he ih =>
    obtain ⟨st, hreaches, hst⟩ := ih
    obtain ⟨st', hreaches', hst'⟩ := hst.effect (fun n hn => by
      obtain ⟨k, app, pages, -, rfl⟩ := hn
      exact Int.mul_emod_left _ _) he
    exact ⟨st', Relation.ReflTransGen.trans hreaches (hreaches'.mono fun _ _ _ => trivial), hst'⟩

end Follows

end Controlled

end ConcordBft
