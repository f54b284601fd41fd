import ConcordBft.Messages

set_option autoImplicit false

/-! # Entering and leaving views (`ViewsManager.cpp`)

`ViewsManager` keeps the view change messages of all replicas. When a replica leaves its view,
`exitFromCurrentView` turns what the replica holds into its own view change message. `tryToEnterView`
first fixes the set of messages for the new view (the pending view), then computes the restrictions
of the new view from them, waits for the PrePrepares that the restrictions name, and at last returns
the PrePrepares that the new view starts with.

The arrays indexed by replica ids are functions; `collectionOfPrePrepareMsgs` is the list of the
entries of the map. -/

namespace ConcordBft

open Checked

/-- The numbers from `first` to `last`. -/
def seqNums (first last : SeqNum) : List SeqNum :=
  (List.range (last - first + 1).toNat).map fun (k : ℕ) => first + (k : Int)

/-- The phases of a view change. -/
inductive Stat where
  | NO_VIEW
  | PENDING
  | PENDING_WITH_RESTRICTIONS
  | IN_VIEW
deriving DecidableEq, Repr

/-- What is kept of a number of the view that is left. -/
structure PrevViewInfo where
  prePrepare : PrePrepareMsg
  hasAllRequests : Bool
  prepareFull : Option SignedShareFull

/-- The messages of view changes and the restrictions of the pending view. -/
structure ViewsManager where
  stat : Stat := .IN_VIEW
  myLatestActiveView : ViewNum := 0
  myLatestPendingView : ViewNum := 0
  viewChangeMessages : ReplicaId → Option ViewChangeMsg := fun _ => none
  newViewMessages : ReplicaId → Option NewViewMsg := fun _ => none
  collectionOfPrePrepareMsgs : List (SeqNum × PrePrepareMsg) := []
  viewChangeMsgsOfPendingView : ReplicaId → Option ViewChangeMsg := fun _ => none
  newViewMsgOfOfPendingView : Option NewViewMsg := none
  minRestrictionOfPendingView : SeqNum := 0
  maxRestrictionOfPendingView : SeqNum := 0
  restrictionsOfPendingView : List Restriction := newRestrictions
  prePrepareMsgsOfRestrictions : ℕ → Option PrePrepareMsg := fun _ => none
  lowerBoundStableForPendingView : SeqNum := 0
  debugHighestKnownStable : SeqNum := 0
  debugHighestViewNumberPassedByClient : ViewNum := 0

namespace ViewsManager

variable (cfg : ReplicaConfig) (vm : ViewsManager)

/-- Whether a view is active. -/
def inView : Bool := vm.stat == .IN_VIEW

/-- Whether `v` is the active view. -/
def viewIsActive (v : ViewNum) : Bool := vm.inView && vm.myLatestActiveView == v

/-- Whether `v` is waiting to be entered. -/
def viewIsPending (v : ViewNum) : Bool := v == vm.myLatestPendingView && vm.myLatestActiveView < v

/-- Whether only PrePrepares are missing. -/
def waitingForMsgs : Bool := vm.stat == .PENDING_WITH_RESTRICTIONS

def getMyLatestViewChangeMsg : Option ViewChangeMsg :=
  (vm.viewChangeMsgsOfPendingView cfg.myId).or (vm.viewChangeMessages cfg.myId)

/-- `setNewViewNumber` on the message that `getMyLatestViewChangeMsg` returned. -/
def updateMyLatestViewChangeMsg (vc : ViewChangeMsg) : ViewsManager :=
  if (vm.viewChangeMsgsOfPendingView cfg.myId).isSome then
    { vm with viewChangeMsgsOfPendingView :=
        Function.update vm.viewChangeMsgsOfPendingView cfg.myId (some vc) }
  else { vm with viewChangeMessages := Function.update vm.viewChangeMessages cfg.myId (some vc) }

/-! ## Receiving messages -/

def addNewView (m : NewViewMsg) : Except Failure (ViewsManager × Bool) := do
  Assert (m.senderId ≠ cfg.myId)
  Assert (m.senderId = cfg.primaryOfView m.newView)
  if m.newView ≤ vm.myLatestPendingView then pure (vm, false)
  else
    pure ({ vm with newViewMessages := Function.update vm.newViewMessages m.senderId (some m) },
      true)

/-- Do we already have a message that must not be overridden, or a later new view? -/
def ignoresViewChange (m : ViewChangeMsg) : Bool :=
  match vm.newViewMessages (cfg.primaryOfView m.newView) with
  | none => false
  | some relatedNewView =>
    if m.newView < relatedNewView.newView then true
    else if relatedNewView.newView = m.newView then
      match vm.viewChangeMessages m.genReplicaId with
      | none => false
      | some prevVC =>
        prevVC.newView == m.newView &&
          relatedNewView.includesViewChangeFromReplica m.genReplicaId (cfg.getMsgDigest prevVC)
    else false

/-- The view change message of a peer. -/
def addViewChange (m : ViewChangeMsg) : Except Failure (ViewsManager × Bool) := do
  Assert (m.genReplicaId ≠ cfg.myId)
  if m.newView ≤ vm.myLatestPendingView then pure (vm, false)
  else if vm.ignoresViewChange cfg m then pure (vm, false)
  else
    pure ({ vm with viewChangeMessages :=
      Function.update vm.viewChangeMessages m.genReplicaId (some m) }, true)

/-- The views after the pending one that the replicas ask for. -/
def requestedViews : List ViewNum :=
  ((List.range cfg.numberOfReplicas).filterMap fun i =>
    if i = cfg.myId then vm.getMyLatestViewChangeMsg cfg else vm.viewChangeMessages i).map
      (·.newView) |>.filter fun v => vm.myLatestPendingView < v

/-- `(maxKnownCorrectView, maxKnownAgreedView)` -/
def computeCorrectRelevantViewNumbers : ViewNum × ViewNum :=
  let viewNumbers := (vm.requestedViews cfg).insertionSort (· ≥ ·)
  let CORRECT := cfg.fVal + 1
  let SMAJOR := 2 * cfg.fVal + 2 * cfg.cVal + 1
  ((viewNumbers[CORRECT - 1]?).getD vm.myLatestPendingView,
    (viewNumbers[SMAJOR - 1]?).getD vm.myLatestPendingView)

/-! ## Leaving a view -/

/-- `resetDataOfLatestPendingAndKeepMyViewChange` -/
def resetDataOfLatestPending : ViewsManager :=
  if vm.newViewMsgOfOfPendingView.isNone then vm
  else
    let vm := { vm with
      viewChangeMessages :=
        match vm.viewChangeMsgsOfPendingView cfg.myId with
        | some vc => Function.update vm.viewChangeMessages cfg.myId (some vc)
        | none => vm.viewChangeMessages
      viewChangeMsgsOfPendingView := fun _ => none
      newViewMsgOfOfPendingView := none }
    if vm.minRestrictionOfPendingView = 0 then vm
    else
      { vm with
        prePrepareMsgsOfRestrictions := fun idx =>
          if (idx : Int) ≤ vm.maxRestrictionOfPendingView - vm.minRestrictionOfPendingView then none
          else vm.prePrepareMsgsOfRestrictions idx
        minRestrictionOfPendingView := 0
        maxRestrictionOfPendingView := 0 }

/-- The prepared certificate of my previous view change message for the same number and digest. -/
def preparedCertInPrev (myLatestActiveView : ViewNum) (s : SeqNum) (digest : Digest)
    (iterPrevVC : ElementsIterator) : Except Failure (Option PreparedCertificate) :=
  match iterPrevVC.getCurrent with
  | none => pure none
  | some elemInPrev =>
    match elemInPrev.preparedCertificate with
    | none => pure none
    | some cert =>
      if elemInPrev.seqNum = s ∧ elemInPrev.prePrepreDigest = digest then do
        Assert (elemInPrev.originView ≤ myLatestActiveView)
        Assert (cert.certificateView ≤ elemInPrev.originView)
        pure (some cert)
      else pure none

/-- Adds what is known about one number to the new message. -/
def addToViewChange (currentLastExecuted : SeqNum) (it : PrevViewInfo)
    (preparedCertInPrev : Option PreparedCertificate) (myNewVC : ViewChangeMsg) :
    Except Failure ViewChangeMsg :=
  let s := it.prePrepare.seqNumber
  let element := fun cert =>
    (⟨s, it.prePrepare.digestOfRequests, vm.myLatestActiveView, cert⟩ : Element)
  match it.prepareFull, preparedCertInPrev with
  | some pf, _ => do
      Assert (s = pf.seqNumber)
      Assert (pf.viewNumber = vm.myLatestActiveView)
      myNewVC.addElement (element (some ⟨vm.myLatestActiveView, pf.signatureBody⟩))
  | none, some cert => myNewVC.addElement (element (some cert))
  | none, none =>
    if it.hasAllRequests && !it.prePrepare.isNull then myNewVC.addElement (element none)
    else do
      Assert (currentLastExecuted < s ∨ it.prePrepare.isNull = true)
      pure myNewVC

/-- The loop of `exitFromCurrentView`. Returns the last number, the new message and the PrePrepares
    that may be needed in the next views. -/
def exitLoop (vm : ViewsManager) (currentLastExecuted : SeqNum) :
    List PrevViewInfo → ElementsIterator → SeqNum → ViewChangeMsg → List (SeqNum × PrePrepareMsg) →
      Except Failure (SeqNum × ViewChangeMsg × List (SeqNum × PrePrepareMsg))
  | [], _, debugExpected, myNewVC, collection => pure (debugExpected, myNewVC, collection)
  | it :: rest, iterPrevVC, debugExpected, myNewVC, collection => do
      let pp := it.prePrepare
      Assert (pp.viewNumber = vm.myLatestActiveView)
      let s := pp.seqNumber
      Assert (vm.lowerBoundStableForPendingView < s)
      Assert (debugExpected < s)
      Assert (it.prepareFull = none ∨ it.hasAllRequests = true)
      let looksInPrev := it.hasAllRequests && it.prepareFull.isNone && !iterPrevVC.atEnd
      let iterPrevVC := if looksInPrev then iterPrevVC.goToAtLeast s else iterPrevVC
      let preparedCertInPrev ←
        (if looksInPrev then
          preparedCertInPrev vm.myLatestActiveView s pp.digestOfRequests iterPrevVC
        else pure none)
      let myNewVC ← vm.addToViewChange currentLastExecuted it preparedCertInPrev myNewVC
      let collection :=
        if it.hasAllRequests && !pp.isNull then collection ++ [(s, pp)] else collection
      exitLoop vm currentLastExecuted rest iterPrevVC s myNewVC collection

def exitFromCurrentView (currentLastStable currentLastExecuted : SeqNum)
    (prevViewInfo : List PrevViewInfo) : Except Failure (ViewsManager × ViewChangeMsg) := do
  Assert (vm.stat = .IN_VIEW)
  Assert (vm.myLatestActiveView = vm.myLatestPendingView)
  Assert ((prevViewInfo.length : Int) ≤ kWorkWindowSize)
  Assert (vm.collectionOfPrePrepareMsgs = [])
  Assert (vm.debugHighestKnownStable ≤ currentLastStable)
  let myPreviousVC := vm.getMyLatestViewChangeMsg cfg
  Assert (vm.myLatestActiveView = 0 ∨
    myPreviousVC.any (fun vc => vc.newView == vm.myLatestActiveView) = true)
  let (debugExpected, myNewVC, collection) ←
    exitLoop vm currentLastExecuted prevViewInfo ((myPreviousVC.map (·.elements)).getD [])
      currentLastStable ⟨cfg.myId, vm.myLatestActiveView + 1, currentLastStable, []⟩ []
  Assert (debugExpected - currentLastStable ≤ kWorkWindowSize)
  let vm := resetDataOfLatestPending cfg
    { vm with
      stat := .NO_VIEW
      debugHighestKnownStable := currentLastStable
      collectionOfPrePrepareMsgs := collection }
  pure ({ vm with viewChangeMessages :=
    Function.update vm.viewChangeMessages cfg.myId (some myNewVC) }, myNewVC)

/-! ## Entering a view -/

variable (v : ViewNum) (currentLastStable : SeqNum) (i : SeqNum)

/-- The replicas whose stored message is for view `v`. -/
def replicasAskingFor : List ReplicaId :=
  (List.range cfg.numberOfReplicas).filter fun i =>
    (vm.viewChangeMessages i).any fun vc => vc.newView == v

/-- Moves the messages of the given replicas to the pending view. -/
def moveToPending (relatedVCMsgs : List ReplicaId) : ViewsManager :=
  { vm with
    viewChangeMsgsOfPendingView := fun i =>
      if i ∈ relatedVCMsgs then vm.viewChangeMessages i else vm.viewChangeMsgsOfPendingView i
    viewChangeMessages := fun i =>
      if i ∈ relatedVCMsgs then none else vm.viewChangeMessages i }

/-- The `NewViewMsg` of the primary: the digest of each message of the set. -/
def createNewViewMsg : List ReplicaId → NewViewMsg → Except Failure NewViewMsg
  | [], nv => pure nv
  | i :: rest, nv =>
    match vm.viewChangeMessages i with
    | none => .error .assertion
    | some vc => do
        Assert (vc.newView = v)
        Assert ((cfg.getMsgDigest vc).isZero = false)
        Assert (vm.viewChangeMsgsOfPendingView i = none)
        let nv ← nv.addElement i (cfg.getMsgDigest vc)
        createNewViewMsg rest nv

/-- The set of the primary: its own message and the first others in the order of their ids. -/
def relatedVCMsgsOfPrimary : List ReplicaId :=
  let others := ((vm.replicasAskingFor cfg v).filter fun i => i != cfg.myId).take
    (2 * cfg.fVal + 2 * cfg.cVal)
  (List.range cfg.numberOfReplicas).filter fun i => i == cfg.myId || others.contains i

def tryMoveToPendingViewAsPrimary : Except Failure (ViewsManager × Bool) := do
  Assert (vm.myLatestPendingView < v)
  Assert (cfg.primaryOfView v = cfg.myId)
  let vm := vm.resetDataOfLatestPending cfg
  Assert ((vm.viewChangeMessages cfg.myId).any (fun vc => vc.newView == v) = true)
  Assert (∀ prevNewView ∈ vm.newViewMessages cfg.myId, prevNewView.newView < v)
  let vm := { vm with newViewMessages := Function.update vm.newViewMessages cfg.myId none }
  let relatedVCMsgs := vm.relatedVCMsgsOfPrimary cfg v
  if relatedVCMsgs.length < 2 * cfg.fVal + 2 * cfg.cVal + 1 then pure (vm, false)
  else do
    Assert (relatedVCMsgs.length = 2 * cfg.fVal + 2 * cfg.cVal + 1)
    let nv ← vm.createNewViewMsg cfg v relatedVCMsgs ⟨cfg.myId, v, []⟩
    Assert (vm.newViewMsgOfOfPendingView = none)
    pure ({ vm.moveToPending relatedVCMsgs with
      newViewMsgOfOfPendingView := some nv
      myLatestPendingView := v }, true)

/-- The stored messages that the new view message includes. -/
def relatedVCMsgsOfNewView (nv : NewViewMsg) : List ReplicaId :=
  (vm.replicasAskingFor cfg v).filter fun i =>
    (vm.viewChangeMessages i).any fun vc =>
      nv.includesViewChangeFromReplica vc.genReplicaId (cfg.getMsgDigest vc)

def tryMoveToPendingViewAsNonPrimary : Except Failure (ViewsManager × Bool) := do
  Assert (vm.myLatestPendingView < v)
  let relevantPrimary := cfg.primaryOfView v
  Assert (relevantPrimary ≠ cfg.myId)
  let vm := vm.resetDataOfLatestPending cfg
  match vm.newViewMessages relevantPrimary with
  | none => pure (vm, false)
  | some nv =>
    let relatedVCMsgs := vm.relatedVCMsgsOfNewView cfg v nv
    if nv.newView ≠ v ∨ relatedVCMsgs.length < 2 * cfg.fVal + 2 * cfg.cVal + 1 then
      pure (vm, false)
    else do
      Assert (relatedVCMsgs.length = 2 * cfg.fVal + 2 * cfg.cVal + 1)
      Assert (vm.newViewMsgOfOfPendingView = none)
      Assert (∀ i ∈ relatedVCMsgs, vm.viewChangeMsgsOfPendingView i = none)
      pure ({ vm.moveToPending relatedVCMsgs with
        newViewMessages := Function.update vm.newViewMessages relevantPrimary none
        newViewMsgOfOfPendingView := some nv
        myLatestPendingView := v }, true)

/-- The block for a new pending view: fix the set of messages and the lower bound. The result tells
    whether the replica's stable point has reached the bound. -/
def newPendingView : Except Failure (ViewsManager × Bool) := do
  let vm := { vm with stat := .NO_VIEW }
  let (vm, newPendingView) ←
    (if cfg.primaryOfView v = cfg.myId then vm.tryMoveToPendingViewAsPrimary cfg v
    else vm.tryMoveToPendingViewAsNonPrimary cfg v)
  if newPendingView = false then pure (vm, false)
  else do
    let t1 ← cfg.safetyLogic.calcLBStableForView vm.viewChangeMsgsOfPendingView
    let t2 := max currentLastStable vm.lowerBoundStableForPendingView
    let vm := { vm with lowerBoundStableForPendingView := max t1 t2, stat := .PENDING }
    pure (vm, decide (vm.lowerBoundStableForPendingView ≤ currentLastStable))

/-- The restriction for a number. -/
def restrictionOfPendingView : Option Restriction :=
  vm.restrictionsOfPendingView[(i - vm.minRestrictionOfPendingView).toNat]?

/-- Is there a non-null restriction for `i`? -/
def isRestricted : Bool := (vm.restrictionOfPendingView i).any fun r => !r.isNull

def prePrepareMsgOfRestriction : Option PrePrepareMsg :=
  vm.prePrepareMsgsOfRestrictions (i - vm.minRestrictionOfPendingView).toNat

/-- The stored PrePrepare that the restriction for `i` asks for. -/
def prePrepareForRestriction : Option PrePrepareMsg :=
  match vm.restrictionOfPendingView i with
  | none => none
  | some r =>
    if r.isNull then none
    else (vm.collectionOfPrePrepareMsgs.lookup i).filter fun pp => pp.digestOfRequests == r.digest

def computeRestrictionsOfNewView : Except Failure ViewsManager := do
  Assert (vm.stat = .PENDING)
  Assert (vm.myLatestPendingView = v)
  Assert (vm.newViewMsgOfOfPendingView.any (fun nv => nv.newView == v) = true)
  let out ← cfg.safetyLogic.computeRestrictions vm.viewChangeMsgsOfPendingView
    vm.lowerBoundStableForPendingView vm.restrictionsOfPendingView
  let vm := { vm with
    stat := .PENDING_WITH_RESTRICTIONS
    minRestrictionOfPendingView := out.minRestrictedSeqNum
    maxRestrictionOfPendingView := out.maxRestrictedSeqNum
    restrictionsOfPendingView := out.restrictions }
  if vm.minRestrictionOfPendingView = 0 then pure vm
  else do
    let restricted := seqNums vm.minRestrictionOfPendingView vm.maxRestrictionOfPendingView
    Assert ((restricted.length : Int) ≤ kWorkWindowSize)
    Assert (∀ i ∈ restricted, vm.prePrepareMsgOfRestriction i = none)
    pure { vm with prePrepareMsgsOfRestrictions := fun idx =>
      if idx < restricted.length then
        vm.prePrepareForRestriction (vm.minRestrictionOfPendingView + (idx : Int))
      else vm.prePrepareMsgsOfRestrictions idx }

def hasMissingMsgs : Bool :=
  vm.minRestrictionOfPendingView != 0 &&
    (seqNums (max vm.minRestrictionOfPendingView (currentLastStable + 1))
      vm.maxRestrictionOfPendingView).any fun i =>
        vm.isRestricted i && (vm.prePrepareMsgOfRestriction i).isNone

/-- The PrePrepare that the new view starts with at `i`. -/
def prePrepareOfView : Except Failure PrePrepareMsg :=
  if vm.isRestricted i then
    match vm.prePrepareMsgOfRestriction i with
    | none => .error .assertion
    | some pp => do
        Assert (pp.seqNumber = i)
        pure (pp.updateView vm.myLatestActiveView)
  else do
    Assert (vm.prePrepareMsgOfRestriction i = none)
    pure (PrePrepareMsg.createNullPrePrepareMsg cfg.myId vm.myLatestActiveView i)

/-- The PrePrepares of the new view, and the cleared collections. -/
def enterView : Except Failure (ViewsManager × List PrePrepareMsg) := do
  let vm : ViewsManager := { vm with myLatestActiveView := v, stat := .IN_VIEW }
  if vm.minRestrictionOfPendingView = 0 then
    pure ({ vm with collectionOfPrePrepareMsgs := [] }, [])
  else do
    let firstRelevant := min (vm.maxRestrictionOfPendingView + 1)
      (max vm.minRestrictionOfPendingView (currentLastStable + 1))
    Assert ((seqNums vm.minRestrictionOfPendingView (firstRelevant - 1)).all (fun i =>
      !vm.isRestricted i ||
        (vm.prePrepareMsgOfRestriction i).all fun pp => pp.seqNumber == i) = true)
    let outPrePrepareMsgsOfView ←
      (seqNums firstRelevant vm.maxRestrictionOfPendingView).mapM (vm.prePrepareOfView cfg)
    pure ({ vm with
      prePrepareMsgsOfRestrictions := fun idx =>
        if (idx : Int) ≤ vm.maxRestrictionOfPendingView - vm.minRestrictionOfPendingView ∧
            vm.isRestricted (vm.minRestrictionOfPendingView + (idx : Int)) = true then none
        else vm.prePrepareMsgsOfRestrictions idx
      collectionOfPrePrepareMsgs := [] }, outPrePrepareMsgsOfView)

/-- The part of `tryToEnterView` for a view that is pending. -/
def enterPendingView : Except Failure (ViewsManager × Option (List PrePrepareMsg)) := do
  Assert (v = vm.myLatestPendingView)
  let vm ← (if vm.stat = .PENDING then vm.computeRestrictionsOfNewView cfg v else pure vm)
  if vm.stat ≠ .PENDING_WITH_RESTRICTIONS ∨ vm.hasMissingMsgs currentLastStable = true then
    pure (vm, none)
  else do
    let (vm, prePrepares) ← vm.enterView cfg v currentLastStable
    pure (vm, some prePrepares)

/-- Returns the PrePrepares of the view when the view is entered. -/
def tryToEnterView (currentLastExecuted : SeqNum) :
    Except Failure (ViewsManager × Option (List PrePrepareMsg)) := do
  Assert (vm.stat ≠ .IN_VIEW)
  Assert (vm.myLatestActiveView < v)
  Assert (vm.myLatestPendingView ≤ v)
  Assert (vm.debugHighestViewNumberPassedByClient ≤ v)
  Assert (vm.debugHighestKnownStable ≤ currentLastStable)
  let vm := { vm with
    debugHighestViewNumberPassedByClient := v
    debugHighestKnownStable := currentLastStable }
  if currentLastExecuted < currentLastStable ∨
      currentLastStable < vm.lowerBoundStableForPendingView then
    -- we don't have the state, or not the latest stable point
    pure (vm, none)
  else if vm.myLatestPendingView < v then do
    let (vm, ready) ← vm.newPendingView cfg v currentLastStable
    if ready = false then pure (vm, none) else vm.enterPendingView cfg v currentLastStable
  else vm.enterPendingView cfg v currentLastStable

/-- A PrePrepare from the network, when the replica waits for the PrePrepares of restrictions. -/
def addPotentiallyMissingPP (p : PrePrepareMsg) : Except Failure (ViewsManager × Bool) := do
  Assert (vm.stat = .PENDING_WITH_RESTRICTIONS)
  Assert (p.isNull = false)
  let s := p.seqNumber
  if vm.minRestrictionOfPendingView ≠ 0 ∧ vm.minRestrictionOfPendingView ≤ s ∧
      s ≤ vm.maxRestrictionOfPendingView then do
    let idx := (s - vm.minRestrictionOfPendingView).toNat
    Assert ((idx : Int) < kWorkWindowSize)
    if vm.prePrepareMsgOfRestriction s = none ∧
        (vm.restrictionOfPendingView s).any
          (fun r => !r.isNull && r.digest == p.digestOfRequests) = true then
      pure ({ vm with prePrepareMsgsOfRestrictions :=
        Function.update vm.prePrepareMsgsOfRestrictions idx (some p) }, true)
    else pure (vm, false)
  else pure (vm, false)

/-- `getMyNewViewMsgForCurrentView` -/
def getMyNewViewMsgForCurrentView : Except Failure NewViewMsg := do
  Assert (vm.stat = .IN_VIEW)
  Assert (cfg.myId = cfg.primaryOfView vm.myLatestActiveView)
  match vm.newViewMsgOfOfPendingView with
  | none => .error .assertion
  | some r => do
      Assert (r.senderId = cfg.myId)
      Assert (r.newView = vm.myLatestActiveView)
      pure r

/-! ## What is reported to other replicas -/

def hasNewViewMessage : Except Failure Bool := do
  Assert (vm.myLatestPendingView ≤ v)
  if v = vm.myLatestPendingView then pure true
  else pure ((vm.newViewMessages (cfg.primaryOfView v)).any fun nv => nv.newView == v)

def hasViewChangeMessageForFutureView (repId : ReplicaId) : Bool :=
  vm.stat != .NO_VIEW ||
    (vm.viewChangeMessages repId).any fun vc => vm.myLatestPendingView < vc.newView

/-- The numbers whose PrePrepares the replica waits for. -/
def getNumbersOfMissingPP : List SeqNum :=
  if vm.stat ≠ .PENDING_WITH_RESTRICTIONS ∨ vm.minRestrictionOfPendingView = 0 then []
  else
    (seqNums (max vm.minRestrictionOfPendingView (currentLastStable + 1))
      vm.maxRestrictionOfPendingView).filter fun i =>
        vm.isRestricted i && (vm.prePrepareMsgOfRestriction i).isNone

def getPrePrepare (s : SeqNum) : Except Failure (Option PrePrepareMsg) := do
  Assert (vm.stat ≠ .IN_VIEW)
  let p :=
    if vm.stat = .PENDING_WITH_RESTRICTIONS then
      if vm.minRestrictionOfPendingView ≠ 0 ∧ vm.minRestrictionOfPendingView ≤ s ∧
          s ≤ vm.maxRestrictionOfPendingView ∧ vm.isRestricted s = true then
        vm.prePrepareMsgOfRestriction s
      else none
    else vm.collectionOfPrePrepareMsgs.lookup s
  Assert (∀ pp ∈ p, pp.seqNumber = s ∧ pp.isNull = false)
  pure p

end ViewsManager

end ConcordBft
