import ConcordBft.ReplicaImp.Handlers
import ConcordBft.SeqNumInfo.Proofs
import ConcordBft.ViewsManager.Leaving

set_option autoImplicit false

/-! # What the code of a replica can do to its state

`Effect` lists, once and for all, the changes that the functions of a replica make: a slot is
updated, a PrePrepare is accepted, the stable point moves, a number is executed, a view is left or
entered, and so on. Each constructor says under which condition the code makes the change. Every
function is then shown to have only such effects (`Effects/`), and every invariant of a replica is
proved once, for the effects.

A `Scope` limits the effects to those that one event may bring. The scope `executing` belongs to
`executeReadWriteRequests` and what it calls, the scope `proposing` to `tryToSendPrePrepareMsg`. -/

namespace ConcordBft.ReplicaImp

open Checked SequenceWithActiveWindow

variable {App : Type}

/-! ## Scopes -/

/-- What an event may bring about. -/
structure Scope (App : Type) where
  /-- numbers may be committed and views be left -/
  full : Prop
  /-- checkpoints may change, and the stable point may move -/
  moves : Prop
  /-- numbers may be executed -/
  executes : Prop
  /-- the view change messages that may be stored -/
  receives : ViewChangeMsg → Prop
  /-- the requests that may be put into the queue of the primary -/
  requests : ClientRequestMsg → Prop
  /-- the states in which the view may be entered, and the manager after that -/
  enters : ReplicaImp App → ViewsManager → Prop
  /-- the checkpoints whose state may be adopted -/
  transfers : SeqNum → Prop
  /-- the states that may be fetched -/
  fetches : App → ReservedPages → Prop
  /-- the numbers for which missing data are sent on request -/
  answers : SeqNum → Prop

namespace Scope

/-- Proposing requests. -/
def proposing : Scope App where
  full := False
  moves := False
  executes := False
  receives := fun _ => False
  requests := fun _ => False
  enters := fun _ _ => False
  transfers := fun _ => False
  fetches := fun _ _ => False
  answers := fun _ => False

/-- Checkpoints and stable points. -/
def checkpointing : Scope App := { proposing with moves := True }

/-- Executing committed numbers, and what follows from that. -/
def executing : Scope App := { proposing with moves := True, executes := True }

/-- One scope allows all that another one does. -/
structure Le (M N : Scope App) : Prop where
  full : M.full → N.full
  moves : M.moves → N.moves
  executes : M.executes → N.executes
  receives : ∀ m, M.receives m → N.receives m
  requests : ∀ m, M.requests m → N.requests m
  enters : ∀ r vm, M.enters r vm → N.enters r vm
  transfers : ∀ n, M.transfers n → N.transfers n
  fetches : ∀ app pages, M.fetches app pages → N.fetches app pages
  answers : ∀ s, M.answers s → N.answers s

theorem proposing_le (N : Scope App) : Le proposing N :=
  ⟨False.elim, False.elim, False.elim, fun _ => False.elim, fun _ => False.elim,
    fun _ _ => False.elim, fun _ => False.elim, fun _ _ => False.elim, fun _ => False.elim⟩

theorem checkpointing_le {N : Scope App} (h : N.moves) : Le checkpointing N :=
  { proposing_le N with moves := fun _ => h }

theorem executing_le {N : Scope App} (h : N.moves) (h' : N.executes) : Le executing N :=
  { proposing_le N with moves := fun _ => h, executes := fun _ => h' }

end Scope

/-! ## Messages and shares -/

variable (cfg : ReplicaConfig) (M : Scope App) (r : ReplicaImp App)

/-- When a message is sent. -/
def Sendable : Msg → Prop
  | .partialCommitProof p =>
    p.seqNumber ≤ r.lastExecutedSeqNum + MaxConcurrentFastPaths ∨ M.answers p.seqNumber
  | .viewChange m => r.viewsManager.getMyLatestViewChangeMsg cfg = some m
  | _ => True

/-- When a share is made on the digest of a slot. -/
def Signable (vote : Vote) (pp : PrePrepareMsg) (info : SeqNumInfo) : Prop :=
  match vote with
  | .prepare => True
  | .commit => info.prepareSigCollector.combinedValidSignatureMsg.isSome = true
  | .fast path => path = pp.firstPath

/-- The actions that are recorded by themselves. -/
def Recordable : Action → Prop
  | .send _ m => Sendable cfg M r m
  | .sendToAllOtherReplicas m => Sendable cfg M r m
  | .sign vote v s d => v = r.curView ∧ r.currentViewIsActive = true ∧ r.mainLog.Holds s ∧
      ∃ pp, (r.mainLog.lookup s).prePrepareMsg = some pp ∧ pp.digestOfRequests = d ∧
        Signable vote pp (r.mainLog.lookup s)
  | .markCheckpoint k => r.currentViewIsActive = true ∧
      k + MaxConcurrentFastPaths ≤ r.lastExecutedSeqNum ∧ r.mainLog.Holds r.lastExecutedSeqNum ∧
      (r.mainLog.lookup r.lastExecutedSeqNum).partialProofsSet.fullCommitProof.isSome = true
  | .accept _ _ _ => False
  | .enterView _ _ _ _ => False
  | .execute _ _ _ => False

/-! ## Large changes -/

/-- The signature of the full commit proof of a slot. -/
def proofOf (s : SeqNum) : Option Bytes :=
  (r.mainLog.lookup s).partialProofs.getFullProof.map (·.thresholSignature)

/-- The stable point moves to `n`, and the counters follow. -/
def advanceTo (n : SeqNum) (mainLog : MainLog) (checkpointsLog : CheckpointsLog) : ReplicaImp App :=
  { r with
    lastStableSeqNum := n
    strictLowerBoundOfSeqNums := max r.strictLowerBoundOfSeqNums n
    primaryLastUsedSeqNum := max r.primaryLastUsedSeqNum n
    mainLog := mainLog
    checkpointsLog := checkpointsLog }

/-- The windows after the stable point has moved to `n`: numbers that stay in a window keep their
    items, and numbers that enter it have empty ones. -/
structure Advanced (n : SeqNum) (mainLog : MainLog) (checkpointsLog : CheckpointsLog) : Prop where
  mainLog_begin : mainLog.beginningOfActiveWindow = n + 1
  mainLog_lookup : ∀ s, mainLog.Holds s → mainLog.lookup s =
    if s < r.mainLog.beginningOfActiveWindow + 300 then r.mainLog.lookup s else {}
  checkpointsLog_begin : checkpointsLog.beginningOfActiveWindow = n
  checkpointsLog_lookup : ∀ s, checkpointsLog.Holds s → checkpointsLog.lookup s =
    if s < r.checkpointsLog.beginningOfActiveWindow + 450 then r.checkpointsLog.lookup s else {}

/-- The state of checkpoint `n` is adopted, with the clients `cm` of its reserved pages. -/
def adopt (n : SeqNum) (cm : ClientsManager) : ReplicaImp App :=
  { r with
    lastExecutedSeqNum := n
    execution := { r.execution with clientsManager := cm } }

/-- The information about one number that a replica takes along when it leaves its view. -/
def prevViewInfo (s : SeqNum) : Option PrevViewInfo :=
  (r.mainLog.lookup s).prePrepareMsg.map fun pp =>
    ⟨pp, true, (r.mainLog.lookup s).prepareSigCollector.combinedValidSignatureMsg⟩

/-- The element of the view change message for one number. -/
def report (s : SeqNum) : Option Element :=
  (r.prevViewInfo s).bind
    (ViewsManager.reportOf r.curView (r.viewsManager.prevElements cfg))

/-- What the view change message `m` of a replica says when it leaves its view: an active view is
    reported, and otherwise the last message is sent again. -/
def Reports (m : ViewChangeMsg) : Prop :=
  if r.currentViewIsActive then
    m.lastStable = r.lastStableSeqNum ∧
    m.elements = (seqNums (r.lastStableSeqNum + 1) (r.lastStableSeqNum + kWorkWindowSize)).filterMap
      (r.report cfg) ∧
    (r.curView = 0 ∨ ∃ m₀, r.viewsManager.getMyLatestViewChangeMsg cfg = some m₀ ∧
      m₀.newView = r.curView)
  else ∃ m₀, r.viewsManager.getMyLatestViewChangeMsg cfg = some m₀ ∧
    m₀.lastStable = m.lastStable ∧ m₀.elements = m.elements

/-- The replica leaves its view for view `v` with the message `m`. -/
structure Left (v : ViewNum) (m : ViewChangeMsg) (vm : ViewsManager) (log : MainLog) : Prop where
  view_lt : r.curView < v
  wf : vm.Wf cfg v
  inactive : vm.stat ≠ .IN_VIEW
  stored : ∀ i vc, vm.Stored i vc → r.viewsManager.Stored i vc ∨ (i = cfg.myId ∧ vc = m)
  own : vm.getMyLatestViewChangeMsg cfg = some m
  within : vm.Within r.lastStableSeqNum
  log_begin : log.beginningOfActiveWindow = r.mainLog.beginningOfActiveWindow
  log_empty : ∀ s, log.Holds s → log.lookup s = {}
  sender : m.genReplicaId = cfg.myId
  newView_eq : m.newView = v
  reports : Reports cfg r m
  sorted : SortedElements m.elements

/-- What is recorded when the view is entered with the PrePrepares `pps`. -/
inductive EntryAction (vm : ViewsManager) (pps : List PrePrepareMsg) : Action → Prop
  | enterView : EntryAction vm pps (.enterView r.curView
      ((List.range cfg.numberOfReplicas).map vm.viewChangeMsgsOfPendingView)
      vm.lowerBoundStableForPendingView r.lastStableSeqNum)
  | newView (nv : NewViewMsg) : EntryAction vm pps (.sendToAllOtherReplicas (.newView nv))
  | accept (pp : PrePrepareMsg) (h : pp ∈ pps) :
      EntryAction vm pps (.accept r.curView pp.seqNumber pp.digestOfRequests)
  | sign (pp : PrePrepareMsg) (h : pp ∈ pps) :
      EntryAction vm pps (.sign .prepare r.curView pp.seqNumber pp.digestOfRequests)
  | send (dest : NodeIdType) (p : SignedSharePartial) :
      EntryAction vm pps (.send dest (.preparePartial p))

/-- The state after the view has been entered with the PrePrepares `pps`. -/
def enterWith (vm : ViewsManager) (pps : List PrePrepareMsg) (log : MainLog) (new : List Action) :
    ReplicaImp App :=
  { r.setCountersOfNewView pps with
    viewsManager := vm
    mainLog := log
    trace := new ++ r.trace
    execution := { r.execution with
      clientsManager := r.execution.clientsManager.clearAllPendingRequests }
    requestsQueueOfPrimary := [] }

/-- The replica enters its view with the PrePrepares `pps`. -/
structure Entered (vm : ViewsManager) (pps : List PrePrepareMsg) (log : MainLog)
    (new : List Action) : Prop where
  enters : ViewsManager.Enters cfg r.curView r.lastStableSeqNum r.viewsManager vm pps
  log_begin : log.beginningOfActiveWindow = r.mainLog.beginningOfActiveWindow
  slots : ∀ s, r.mainLog.Holds s →
    (∃ pp ∈ pps, pp.seqNumber = s ∧ (log.lookup s).prePrepareMsg = some pp ∧
      (log.lookup s).Inv cfg r.curView s) ∨
    ((∀ pp ∈ pps, pp.seqNumber ≠ s) ∧ log.lookup s = r.mainLog.lookup s)
  actions : ∀ a ∈ new, EntryAction cfg r vm pps a
  entry : .enterView r.curView
    ((List.range cfg.numberOfReplicas).map vm.viewChangeMsgsOfPendingView)
    vm.lowerBoundStableForPendingView r.lastStableSeqNum ∈ new
  accepts : ∀ pp ∈ pps, .accept r.curView pp.seqNumber pp.digestOfRequests ∈ new

/-! ## Effects -/

/-- The changes that the code makes to the state `r`. -/
inductive Effect (cfg : ReplicaConfig) (handler : RequestsHandler App) (M : Scope App)
    (r : ReplicaImp App) : ReplicaImp App → Prop
  | record (a : Action) (h : Recordable cfg M r a) : Effect cfg handler M r (r.record a)
  /-- A slot changes, but not its PrePrepare. -/
  | slot (s : SeqNum) (info : SeqNumInfo) (hactive : r.currentViewIsActive = true)
      (hs : r.mainLog.Holds s) (hinv : info.Inv cfg r.curView s)
      (hkeeps : SeqNumInfo.Keeps (r.mainLog.lookup s) info)
      (hcommit : M.full ∨ info.isCommitted = (r.mainLog.lookup s).isCommitted) :
      Effect cfg handler M r (r.setSlot s info)
  /-- An empty slot takes a PrePrepare of the primary. -/
  | accept (s : SeqNum) (info : SeqNumInfo) (pp : PrePrepareMsg)
      (hactive : r.currentViewIsActive = true) (hs : r.mainLog.Holds s)
      (hstrict : r.strictLowerBoundOfSeqNums < s) (hinv : info.Inv cfg r.curView s)
      (hnone : (r.mainLog.lookup s).prePrepareMsg = none) (hpp : info.prePrepareMsg = some pp)
      (hfits : pp.DigestFits cfg) (hcommit : info.isCommitted = false)
      (hprimary : r.isCurrentPrimary cfg = true → s ≤ r.primaryLastUsedSeqNum) :
      Effect cfg handler M r
        ((r.setSlot s info).record (.accept r.curView s pp.digestOfRequests))
  | checkpoint (n : SeqNum) (info : CheckpointInfo) (hM : M.moves)
      (hn : r.checkpointsLog.Holds n)
      (hexec : (info.selfCheckpointMsg cfg.toReplicasInfo cfg.myId).isSome = true ∨
        info.executed = true → n ≤ r.lastExecutedSeqNum) :
      Effect cfg handler M r (r.setCheckpoint n info)
  | stable (n : SeqNum) (log : MainLog) (cps : CheckpointsLog) (hM : M.moves)
      (hmod : n % checkpointWindowSize = 0) (hlt : r.lastStableSeqNum < n)
      (hle : n ≤ r.lastExecutedSeqNum) (h : Advanced r n log cps) :
      Effect cfg handler M r (r.advanceTo n log cps)
  | execute (pp : PrePrepareMsg) (x : Execution App) (replies : List (NodeIdType × ClientReplyMsg))
      (hM : M.executes) (hactive : r.currentViewIsActive = true) (hcollecting : r.isCollectingState = false)
      (hs : r.mainLog.Holds (r.lastExecutedSeqNum + 1))
      (hready : readyPrePrepare (r.mainLog.lookup (r.lastExecutedSeqNum + 1)) = some pp)
      (hexec : r.execution.executeRequests cfg handler (r.lastExecutedSeqNum + 1)
        (r.currentPrimary cfg) (r.proofOf (r.lastExecutedSeqNum + 1)) pp.requests =
          .ok (x, replies)) :
      Effect cfg handler M r
        ({ r with execution := x, lastExecutedSeqNum := r.lastExecutedSeqNum + 1 }.record
          (.execute (r.lastExecutedSeqNum + 1) pp.requests (r.proofOf (r.lastExecutedSeqNum + 1))))
  /-- Pending requests of clients change. -/
  | clients (cm : ClientsManager)
      (hpages : cm.reservedPages = r.execution.clientsManager.reservedPages)
      (hreplies : ∀ i, cm.seqNumberOfLastReplyToClient i =
        r.execution.clientsManager.seqNumberOfLastReplyToClient i) :
      Effect cfg handler M r { r with execution := { r.execution with clientsManager := cm } }
  /-- The primary has used the numbers up to `n`. -/
  | use (n : SeqNum) (hge : r.primaryLastUsedSeqNum ≤ n)
      (hle : n ≤ r.lastStableSeqNum + kWorkWindowSize) :
      Effect cfg handler M r { r with primaryLastUsedSeqNum := n }
  | bookkeeping (queue : List ClientRequestMsg) (maxNumber factor : ℕ)
      (table : List (ReplicaId × CheckpointMsg)) (agreed : ViewNum) (collecting : Bool)
      (hqueue : ∀ m ∈ queue, m ∈ r.requestsQueueOfPrimary ∨ M.requests m)
      (hcollecting : M.full ∨ collecting = r.isCollectingState) :
      Effect cfg handler M r { r with
        requestsQueueOfPrimary := queue
        maxNumberOfPendingRequestsInRecentHistory := maxNumber
        batchingFactor := factor
        tableOfStableCheckpoints := table
        lastAgreedView := agreed
        isCollectingState := collecting }
  /-- Messages of the view change are stored, or a view becomes pending. -/
  | views (vm : ViewsManager) (hfull : M.full) (hwf : vm.Wf cfg r.curView)
      (hquiet : ViewsManager.Quiet cfg M.receives r.viewsManager vm)
      (hwithin : vm.Within r.lastStableSeqNum) :
      Effect cfg handler M r { r with viewsManager := vm }
  | fetch (app : App) (pages : ReservedPages) (hfull : M.full) (h : M.fetches app pages) :
      Effect cfg handler M r { r with
        isCollectingState := false
        execution := { r.execution with
          app := app
          clientsManager := { r.execution.clientsManager with reservedPages := pages } } }
  /-- The state of a checkpoint above the last executed number is adopted. -/
  | transfer (n : SeqNum) (cm : ClientsManager) (hfull : M.full) (hn : M.transfers n)
      (hlt : r.lastExecutedSeqNum < n)
      (hcm : r.execution.clientsManager.loadInfoFromReservedPages cfg = .ok cm)
      (hle : n ≤ r.lastStableSeqNum + kWorkWindowSize) :
      Effect cfg handler M r (r.adopt n cm)
  /-- If it is above the windows, they move with it. -/
  | jump (n : SeqNum) (cm : ClientsManager) (log : MainLog) (cps : CheckpointsLog)
      (hfull : M.full) (hn : M.transfers n) (hmod : n % checkpointWindowSize = 0)
      (hlt : r.lastExecutedSeqNum < n)
      (hcm : r.execution.clientsManager.loadInfoFromReservedPages cfg = .ok cm)
      (hgt : r.lastStableSeqNum + kWorkWindowSize < n)
      (h : Advanced (r.adopt n cm) (n - kWorkWindowSize) log cps) :
      Effect cfg handler M r ((r.adopt n cm).advanceTo (n - kWorkWindowSize) log cps)
  | leave (v : ViewNum) (m : ViewChangeMsg) (vm : ViewsManager) (log : MainLog) (hfull : M.full)
      (h : Left cfg r v m vm log) :
      Effect cfg handler M r
        ({ r with viewsManager := vm, curView := v, mainLog := log }.sendToAllOtherReplicas
          (.viewChange m))
  | enter (vm : ViewsManager) (pps : List PrePrepareMsg) (log : MainLog) (new : List Action)
      (hfull : M.full) (hm : M.enters r vm) (h : Entered cfg r vm pps log new) :
      Effect cfg handler M r (r.enterWith vm pps log new)

/-- Any number of effects. -/
def Effects (handler : RequestsHandler App) (M : Scope App) :
    ReplicaImp App → ReplicaImp App → Prop :=
  Relation.ReflTransGen (Effect cfg handler M)

section Basic

variable {cfg : ReplicaConfig} {handler : RequestsHandler App} {M N : Scope App}
  {r r₁ r₂ : ReplicaImp App}

theorem Effects.refl (r : ReplicaImp App) : Effects cfg handler M r r := Relation.ReflTransGen.refl

theorem Effects.trans (h : Effects cfg handler M r r₁) (h' : Effects cfg handler M r₁ r₂) :
    Effects cfg handler M r r₂ :=
  Relation.ReflTransGen.trans h h'

theorem Effects.tail (h : Effects cfg handler M r r₁) (h' : Effect cfg handler M r₁ r₂) :
    Effects cfg handler M r r₂ :=
  Relation.ReflTransGen.tail h h'

theorem Effect.effects (h : Effect cfg handler M r r₁) : Effects cfg handler M r r₁ :=
  Relation.ReflTransGen.single h

/-- Bookkeeping, read off the state that it gives. -/
theorem Effects.bookkeeping (heq : r₁ = { r with
      requestsQueueOfPrimary := r₁.requestsQueueOfPrimary
      maxNumberOfPendingRequestsInRecentHistory := r₁.maxNumberOfPendingRequestsInRecentHistory
      batchingFactor := r₁.batchingFactor
      tableOfStableCheckpoints := r₁.tableOfStableCheckpoints
      lastAgreedView := r₁.lastAgreedView
      isCollectingState := r₁.isCollectingState })
    (hqueue : ∀ m ∈ r₁.requestsQueueOfPrimary, m ∈ r.requestsQueueOfPrimary ∨ M.requests m)
    (hcollecting : M.full ∨ r₁.isCollectingState = r.isCollectingState) :
    Effects cfg handler M r r₁ := by
  rw [heq]
  exact (Effect.bookkeeping _ _ _ _ _ _ hqueue hcollecting).effects

/-- **Invariant rule for effects.** -/
theorem Effects.invariant {I : ReplicaImp App → Prop}
    (hstep : ∀ r r', I r → Effect cfg handler M r r' → I r') (h0 : I r)
    (h : Effects cfg handler M r r₁) : I r₁ := by
  induction h with
  | refl => exact h0
  | tail _ he ih => exact hstep _ _ ih he

theorem Sendable.mono (hle : M.Le N) {m : Msg} (h : Sendable cfg M r m) : Sendable cfg N r m := by
  cases m with
  | partialCommitProof p => exact h.imp_right (hle.answers p.seqNumber)
  | _ => exact h

theorem Recordable.mono (hle : M.Le N) {a : Action} (h : Recordable cfg M r a) :
    Recordable cfg N r a := by
  cases a with
  | send dest m | sendToAllOtherReplicas m => exact Sendable.mono hle h
  | _ => exact h

theorem Effect.mono (hle : M.Le N) (h : Effect cfg handler M r r₁) : Effect cfg handler N r r₁ := by
  cases h with
  | record a h => exact .record a (h.mono hle)
  | slot s info hactive hs hinv hkeeps hcommit =>
    exact .slot s info hactive hs hinv hkeeps (hcommit.imp_left hle.full)
  | accept s info pp hactive hs hstrict hinv hnone hpp hfits hcommit hprimary =>
    exact .accept s info pp hactive hs hstrict hinv hnone hpp hfits hcommit hprimary
  | checkpoint n info hM hn hexec => exact .checkpoint n info (hle.moves hM) hn hexec
  | stable n log cps hM hmod hlt hle' h => exact .stable n log cps (hle.moves hM) hmod hlt hle' h
  | execute pp x replies hM hactive hcollecting hs hready hexec =>
    exact .execute pp x replies (hle.executes hM) hactive hcollecting hs hready hexec
  | clients cm hpages hreplies => exact .clients cm hpages hreplies
  | use n hge hle => exact .use n hge hle
  | bookkeeping queue maxNumber factor table agreed collecting hqueue hcollecting =>
    exact .bookkeeping queue maxNumber factor table agreed collecting
      (fun m hm => (hqueue m hm).imp_right (hle.requests m)) (hcollecting.imp_left hle.full)
  | views vm hfull hwf hquiet hwithin =>
    refine .views vm (hle.full hfull) hwf ⟨fun i vc hvc => ?_, hquiet.own, hquiet.active⟩ hwithin
    exact (hquiet.stored i vc hvc).imp_right fun h => ⟨hle.receives vc h.1, h.2⟩
  | fetch app pages hfull h => exact .fetch app pages (hle.full hfull) (hle.fetches app pages h)
  | transfer n cm hfull hn hlt hcm h =>
    exact .transfer n cm (hle.full hfull) (hle.transfers n hn) hlt hcm h
  | jump n cm log cps hfull hn hmod hlt hcm hgt h =>
    exact .jump n cm log cps (hle.full hfull) (hle.transfers n hn) hmod hlt hcm hgt h
  | leave v m vm log hfull h => exact .leave v m vm log (hle.full hfull) h
  | enter vm pps log new hfull hm h =>
    exact .enter vm pps log new (hle.full hfull) (hle.enters r vm hm) h

theorem Effects.mono (hle : M.Le N) (h : Effects cfg handler M r r₁) : Effects cfg handler N r r₁ :=
  Relation.ReflTransGen.mono (fun _ _ he => he.mono hle) _ _ h

/-- What proposing leaves as it was. -/
structure SameProgress (r r' : ReplicaImp App) : Prop where
  stable_eq : r'.lastStableSeqNum = r.lastStableSeqNum
  executed_eq : r'.lastExecutedSeqNum = r.lastExecutedSeqNum
  checkpointsLog_eq : r'.checkpointsLog = r.checkpointsLog

theorem Effects.sameProgress (h : Effects cfg handler Scope.proposing r r₁) : SameProgress r r₁ := by
  refine h.invariant (fun r₂ r₃ hsame he => ?_) ⟨rfl, rfl, rfl⟩
  obtain ⟨hstable, hexec, hcps⟩ := hsame
  cases he with
  | checkpoint _ _ hM | stable _ _ _ hM | execute _ _ _ hM | transfer _ _ hM | jump _ _ _ _ hM
  | leave _ _ _ _ hM | enter _ _ _ _ hM => exact hM.elim
  | _ => exact ⟨hstable, hexec, hcps⟩

/-- Only executions and transfers change the last executed number. -/
theorem Effects.executed_eq (hfull : ¬ M.full) (hexec : ¬ M.executes)
    (h : Effects cfg handler M r r₁) : r₁.lastExecutedSeqNum = r.lastExecutedSeqNum := by
  refine h.invariant (I := fun r₂ => r₂.lastExecutedSeqNum = r.lastExecutedSeqNum)
    (fun r₂ r₃ hsame he => ?_) rfl
  cases he with
  | execute _ _ _ hM => exact absurd hM hexec
  | transfer _ _ hM | jump _ _ _ _ hM | enter _ _ _ _ hM => exact absurd hM hfull
  | _ => exact hsame

/-- The view and the state transfer stay as they are while numbers are executed. -/
structure SameView (r r' : ReplicaImp App) : Prop where
  viewsManager_eq : r'.viewsManager = r.viewsManager
  curView_eq : r'.curView = r.curView
  collecting_eq : r'.isCollectingState = r.isCollectingState

theorem SameView.active (h : SameView r r₁) : r₁.currentViewIsActive = r.currentViewIsActive := by
  rw [currentViewIsActive, currentViewIsActive, h.viewsManager_eq, h.curView_eq]

theorem Effects.sameView (hfull : ¬ M.full) (h : Effects cfg handler M r r₁) : SameView r r₁ := by
  refine h.invariant (fun r₂ r₃ hsame he => ?_) ⟨rfl, rfl, rfl⟩
  obtain ⟨hvm, hview, hcol⟩ := hsame
  cases he with
  | bookkeeping _ _ _ _ _ _ _ hcollecting =>
    exact ⟨hvm, hview, (hcollecting.resolve_left hfull).trans hcol⟩
  | views _ hM | fetch _ _ hM | transfer _ _ hM | jump _ _ _ _ hM | leave _ _ _ _ hM
  | enter _ _ _ _ hM => exact absurd hM hfull
  | _ => exact ⟨hvm, hview, hcol⟩

end Basic

end ConcordBft.ReplicaImp
