import ConcordBft.ReplicaImp.Effects.Handlers

set_option autoImplicit false

/-! # The effects of status reports

The handler only sends messages, so the state it starts from is the state in which each of its checks
is made; all of them follow from the invariant of the replica, except for those that a report of
view 0, or a lookup in the list of PrePrepares, can fail. -/

namespace ConcordBft.ReplicaImp

open Checked ViewsManager OnlySends

variable {App : Type} {cfg : ReplicaConfig} {handler : RequestsHandler App} {env : Env}
  {M : Scope App} {r r₁ : ReplicaImp App} {msg : ReplicaStatusMsg}

/-! ## Sending -/

theorem WellFormed.onlySends (hw : WellFormed cfg r) (h : OnlySends cfg r r₁) :
    WellFormed cfg r₁ := by
  obtain ⟨new, rfl, -⟩ := h
  exact { hw with }

theorem onlySends_sendIfSome {α : Type} {f : α → Msg}
    (hf : ∀ a (M : Scope App) t, Sendable cfg M { r with trace := t } (f a)) (o : Option α)
    (dest : NodeIdType) : OnlySends cfg r (r.sendIfSome (o.map f) dest) := by
  cases o with
  | none => exact refl r
  | some a => exact OnlySends.record (hf a)

theorem sendPrePrepareOf_sends {sel : SeqNumInfo → Option PrePrepareMsg} {dest : NodeIdType}
    {i : SeqNum} (hi : r.mainLog.Holds i) : Sends cfg r (r.sendPrePrepareOf sel dest i) := by
  unfold sendPrePrepareOf
  exact meets_get hi (.ok (onlySends_sendIfSome (f := .prePrepare) (fun _ _ _ => trivial) _ dest))

theorem sendCheckpoints_sends {dest : NodeIdType} {numbers : List SeqNum}
    (hnumbers : ∀ i ∈ numbers, r.checkpointsLog.Holds i) :
    Sends cfg r (r.sendCheckpoints cfg dest numbers) := by
  induction numbers generalizing r with
  | nil => exact .ok (refl r)
  | cons i rest ih =>
    unfold sendCheckpoints
    refine meets_get (hnumbers i List.mem_cons_self) ?_
    dsimp only
    have hsent : OnlySends cfg r _ := onlySends_sendIfSome (f := .checkpoint) (fun _ _ _ => trivial)
      ((r.checkpointsLog.lookup i).selfCheckpointMsg cfg.toReplicasInfo cfg.myId) dest
    generalize r.sendIfSome _ dest = r₁ at hsent ⊢
    refine Meets.mono (ih fun j hj => ?_) fun _ => hsent.trans
    obtain ⟨new, rfl, -⟩ := hsent
    exact hnumbers j (List.mem_cons_of_mem i hj)

/-- No sum with the stable point of the sender overflows. -/
def NoOverflow (msg : ReplicaStatusMsg) : Prop :=
  asInt64 (msg.lastStableSeqNum + checkpointWindowSize) =
      msg.lastStableSeqNum + checkpointWindowSize ∧
    asInt64 (msg.lastStableSeqNum + kWorkWindowSize) = msg.lastStableSeqNum + kWorkWindowSize

/-- The range of checkpoints lies in the window. -/
theorem sendUsefulCheckpoints_meets (hw : WellFormed cfg r)
    (hmod : msg.lastStableSeqNum % checkpointWindowSize = 0) :
    Meets (fun e => e = .assertion ∧ ¬ NoOverflow msg) (OnlySends cfg r)
      (r.sendUsefulCheckpoints cfg msg) := by
  have hstable := hw.stable_mod
  have hcb := hw.checkpointsLog_begin
  unfold sendUsefulCheckpoints
  refine meets_require_bind (fun hno => ⟨rfl, fun hfits => hno ?_⟩) fun hbegin => ?_
  · rw [hfits.1]
    unfold checkpointWindowSize at *
    lia
  refine meets_ite (fun hle => ?_) fun _ => .ok (refl r)
  refine meets_require_bind (fun hno => ⟨rfl, fun hfits => hno ?_⟩) fun _ => ?_
  · rw [hfits.1, hfits.2]
    unfold checkpointWindowSize kWorkWindowSize at *
    lia
  · refine (sendCheckpoints_sends fun i hi => ?_).weaken fun _ => False.elim
    obtain ⟨k, hk, rfl⟩ := List.mem_map.1 hi
    have hk' := List.mem_range.1 hk
    rw [checkpointsLog_holds_iff]
    unfold checkpointWindowSize kWorkWindowSize at *
    refine ⟨?_, ?_, ?_⟩ <;> lia

/-! ## The manager of the views -/

theorem stat_ne_of_inactive (hw : WellFormed cfg r) (h : r.currentViewIsActive = false) :
    r.viewsManager.stat ≠ .IN_VIEW := by
  intro hin
  have hview := hw.views.inView hin
  simp [currentViewIsActive, viewIsActive, inView, hin, hview] at h

section

variable (hw : WellFormed cfg r)
include hw

/-- The PrePrepares that the manager keeps have their numbers, and none of them is null. -/
theorem getPrePrepare_meets (h : r.viewsManager.stat ≠ .IN_VIEW) (s : SeqNum) :
    Meets (fun _ => False) (fun _ => True) (r.viewsManager.getPrePrepare s) := by
  unfold getPrePrepare
  refine meets_require_bind (fun hno => hno h) fun _ => ?_
  refine meets_require_bind (fun hno => hno fun pp hpp => ?_) fun _ => .ok trivial
  split_ifs at hpp with hstat hin
  · exact ⟨hw.views.kept.numbers hstat hin.1 s pp hin.2.1 hin.2.2.1 hpp,
      (hw.views.forRestrictions _ pp hpp).1⟩
  · simp at hpp
  · have hlookup : r.viewsManager.collectionOfPrePrepareMsgs.lookup s = some pp := hpp
    obtain ⟨before, after, hsplit, -⟩ := List.lookup_eq_some_iff.1 hlookup
    have hmem : (s, pp) ∈ r.viewsManager.collectionOfPrePrepareMsgs := by simp [hsplit]
    exact ⟨hw.views.kept.keys _ hmem, (hw.views.collection _ hmem).1⟩

theorem sendMissingPrePrepares_sends (missing : List SeqNum) :
    Sends cfg r (r.sendMissingPrePrepares msg missing) := by
  unfold sendMissingPrePrepares
  refine meets_ite (fun _ => ?_) fun hinactive => ?_
  all_goals
    refine meets_foldlM (fun _ r₁ => OnlySends cfg r r₁) (refl r) ?_
    intro _ i _ r₁ _ hsent
    have hw₁ := hw.onlySends hsent
  · refine meets_ite (fun hi => ?_) fun _ => .ok hsent
    exact (sendPrePrepareOf_sends (hw₁.holds_of_inside hi)).mono fun _ => hsent.trans
  · obtain ⟨new, rfl, -⟩ := id hsent
    have hstat := stat_ne_of_inactive hw (by simpa using hinactive)
    exact (getPrePrepare_meets hw₁ hstat i).bind fun pp _ =>
      .ok (hsent.trans (onlySends_sendIfSome (f := .prePrepare) (fun _ _ _ => trivial) _ _))

/-- The own view change message exists in every view but the first. -/
theorem sendMyViewChangeMsg_meets (dest : NodeIdType) :
    Meets (fun e => e = .assertion ∧ r.curView = 0) (fun r₁ => OnlySends cfg r r₁ ∧ r.curView ≠ 0)
      (r.sendMyViewChangeMsg cfg dest) := by
  unfold sendMyViewChangeMsg
  split
  next hnone => exact .error ⟨rfl, hw.own_none.1 hnone⟩
  next m hm =>
    refine .ok ⟨OnlySends.record fun _ _ => hm, fun hzero => ?_⟩
    rw [hw.own_none.2 hzero] at hm
    simp at hm

/-- So does the own new view message, for the active primary. -/
theorem sendMyNewViewMsg_meets (hactive : r.currentViewIsActive = true)
    (hprimary : r.isCurrentPrimary cfg = true) (dest : NodeIdType) :
    Meets (fun e => e = .assertion ∧ r.curView = 0) (fun r₁ => OnlySends cfg r r₁ ∧ r.curView ≠ 0)
      (r.sendMyNewViewMsg cfg dest) := by
  obtain ⟨hstat, hview⟩ :
      r.viewsManager.stat = .IN_VIEW ∧ r.viewsManager.myLatestActiveView = r.curView := by
    simpa [currentViewIsActive, viewIsActive, inView] using hactive
  have hme : cfg.primaryOfView r.curView = cfg.myId := beq_iff_eq.1 hprimary
  unfold sendMyNewViewMsg
  by_cases hzero : r.curView = 0
  · have hnone := hw.views.kept.first hstat (hview.trans hzero)
    have hget : Asserts (fun nv => r.viewsManager.newViewMsgOfOfPendingView = some nv)
        (r.viewsManager.getMyNewViewMsgForCurrentView cfg) :=
      getMyNewViewMsgForCurrentView_asserts
    refine (Meets.weaken hget ?_).bind fun nv hnv => absurd (hnone.symm.trans hnv) (by simp)
    rintro e rfl
    exact ⟨rfl, hzero⟩
  · obtain ⟨hpending, hsome⟩ := hw.views.kept.entered hstat fun h => hzero (hview.symm.trans h)
    obtain ⟨nv, hnv⟩ := Option.isSome_iff_exists.1 hsome
    obtain ⟨hnvView, hnvSender⟩ := hw.views.kept.newView nv hnv
    have hget : Meets (fun _ => False) (fun _ => True)
        (r.viewsManager.getMyNewViewMsgForCurrentView cfg) := by
      unfold getMyNewViewMsgForCurrentView
      refine meets_require_bind (fun hno => hno hstat) fun _ => ?_
      refine meets_require_bind (fun hno => hno (by rw [hview, hme])) fun _ => ?_
      rw [hnv]
      refine meets_require_bind (fun hno => hno ?_) fun _ =>
        meets_require_bind (fun hno => hno (hnvView.trans hpending)) fun _ => .ok trivial
      rw [hnvSender, hnvView, hpending, hview, hme]
    exact (hget.weaken fun _ => False.elim).bind fun nv _ =>
      .ok ⟨OnlySends.record fun _ _ => trivial, hzero⟩

end

/-! ## The handler -/

/-- A report of view 0 (or of a negative view) asks for a view change message or a new view message,
    and view 0 has neither. -/
def AsksInFirstView (cfg : ReplicaConfig) (r : ReplicaImp App) (msg : ReplicaStatusMsg) : Prop :=
  r.curView = 0 ∧ (msg.viewNumber < 0 ∨ msg.viewNumber = 0 ∧ msg.viewIsActive = false ∧
    (r.isCurrentPrimary cfg = true ∨ r.currentPrimary cfg = msg.senderId) ∧
    (r.isCurrentPrimary cfg = true ∧ msg.hasNewChangeMsg = false ∧ r.currentViewIsActive = true ∨
      msg.listOfMissingVCMsg.any (fun l => l.contains cfg.myId) = true))

/-- In a report of the active view, the primary looks up every number that the sender may lack in the
    list of its PrePrepares. The report has no such list, or the first number is not above the stable
    point of the sender; this happens if the number after the last executed one overflows. -/
def FailsLookup (cfg : ReplicaConfig) (r : ReplicaImp App) (msg : ReplicaStatusMsg) : Prop :=
  msg.viewNumber = r.curView ∧ msg.viewIsActive = true ∧ r.isCurrentPrimary cfg = true ∧
    r.currentViewIsActive = true ∧
    max (r.lastStableSeqNum + 1) (asInt64 (msg.lastExecutedSeqNum + 1)) ≤
      min (r.lastStableSeqNum + kWorkWindowSize)
        (asInt64 (msg.lastStableSeqNum + kWorkWindowSize)) ∧
    (msg.listOfPPInActiveWindow = none ∨
      max (r.lastStableSeqNum + 1) (asInt64 (msg.lastExecutedSeqNum + 1)) ≤ msg.lastStableSeqNum)

/-- The reports that stop a replica. -/
def StopsReplica (cfg : ReplicaConfig) (r : ReplicaImp App) (msg : ReplicaStatusMsg) : Prop :=
  r.lastStableSeqNum ≤ asInt64 (msg.lastStableSeqNum + kWorkWindowSize) ∧
    (AsksInFirstView cfg r msg ∨ FailsLookup cfg r msg)

theorem helpToEnterView_meets (hw : WellFormed cfg r) (hview : msg.viewNumber = r.curView)
    (hinactive : msg.viewIsActive = false) :
    Meets (fun e => e = .assertion ∧ AsksInFirstView cfg r msg)
      (fun r₁ => OnlySends cfg r r₁ ∧ ¬ AsksInFirstView cfg r msg) (r.helpToEnterView cfg msg) := by
  unfold helpToEnterView
  refine meets_ite (fun hinvolved => ?_) fun hno => .ok ⟨refl r, ?_⟩
  · -- each of the two messages is missing in view 0 only
    have hnewView : Meets (fun e => e = .assertion ∧ AsksInFirstView cfg r msg)
        (fun r₁ => OnlySends cfg r r₁ ∧ ¬ (r.curView = 0 ∧ r.isCurrentPrimary cfg = true ∧
          msg.hasNewChangeMsg = false ∧ r.currentViewIsActive = true))
        (if r.isCurrentPrimary cfg = true ∧ msg.hasNewChangeMsg = false ∧
          r.currentViewIsActive = true then r.sendMyNewViewMsg cfg msg.senderId else pure r) := by
      refine meets_ite (fun h => ?_) fun h => .ok ⟨refl r, fun hno => h hno.2⟩
      refine ((sendMyNewViewMsg_meets hw h.2.2 h.1 msg.senderId).mono fun r₁ hr₁ => ?_).weaken ?_
      · exact ⟨hr₁.1, fun hno => hr₁.2 hno.1⟩
      · rintro e ⟨rfl, hzero⟩
        exact ⟨rfl, hzero, Or.inr ⟨hview.trans hzero, hinactive, hinvolved, Or.inl h⟩⟩
    refine hnewView.bind fun r₁ hr₁ => ?_
    obtain ⟨hsent₁, hno₁⟩ := hr₁
    have hview₁ : r₁.curView = r.curView := by
      obtain ⟨new, rfl, -⟩ := hsent₁
      rfl
    have hviewChange : Meets (fun e => e = .assertion ∧ AsksInFirstView cfg r msg)
        (fun r₂ => OnlySends cfg r r₂ ∧ ¬ (r.curView = 0 ∧
          msg.listOfMissingVCMsg.any (fun l => l.contains cfg.myId) = true))
        (if msg.listOfMissingVCMsg.any (fun l => l.contains cfg.myId) then
          r₁.sendMyViewChangeMsg cfg msg.senderId else pure r₁) := by
      refine meets_ite (fun h => ?_) fun h => .ok ⟨hsent₁, fun hno => h hno.2⟩
      have hsend := sendMyViewChangeMsg_meets (hw.onlySends hsent₁) msg.senderId
      rw [hview₁] at hsend
      refine (hsend.mono fun r₂ hr₂ => ?_).weaken ?_
      · exact ⟨hsent₁.trans hr₂.1, fun hno => hr₂.2 hno.1⟩
      · rintro e ⟨rfl, hzero⟩
        exact ⟨rfl, hzero, Or.inr ⟨hview.trans hzero, hinactive, hinvolved, Or.inr h⟩⟩
    refine hviewChange.bind fun r₂ hr₂ => ?_
    obtain ⟨hsent, hno₂⟩ := hr₂
    have hnone : ¬ AsksInFirstView cfg r msg := by
      rintro ⟨hzero, hneg | ⟨-, -, -, h | h⟩⟩
      · lia
      · exact hno₁ ⟨hzero, h⟩
      · exact hno₂ ⟨hzero, h⟩
    split
    next => exact .ok ⟨hsent, hnone⟩
    next missing _ =>
      have hsend : Sends cfg r₂ (r₂.sendMissingPrePrepares msg missing) :=
        sendMissingPrePrepares_sends (hw.onlySends hsent) missing
      exact (hsend.mono fun _ h => ⟨hsent.trans h, hnone⟩).weaken fun _ => False.elim
  · rintro ⟨hzero, hneg | ⟨-, -, hinvolved, -⟩⟩
    · lia
    · exact hno hinvolved

theorem helpInView_meets (hw : WellFormed cfg r) (hview : msg.viewNumber = r.curView)
    (hmsg : msg.viewIsActive = true) :
    Meets (fun e => e = .assertion ∧ FailsLookup cfg r msg)
      (fun r₁ => OnlySends cfg r r₁ ∧ ¬ FailsLookup cfg r msg) (r.helpInView cfg env msg) := by
  unfold helpInView
  refine meets_ite (fun hno => .ok ⟨refl r, ?_⟩) fun hprimary =>
    meets_ite (fun hno => ?_) fun hactive => ?_
  · rintro ⟨-, -, hprimary, -⟩
    exact absurd (hno.symm.trans hprimary) (by simp)
  · refine ((tryToSendStatusReport_sends hw).mono fun _ h => ⟨h, ?_⟩).weaken fun _ => False.elim
    rintro ⟨-, -, -, hactive, -⟩
    exact absurd (hno.symm.trans hactive) (by simp)
  · -- a lookup fails if the list is missing or the number is not above the sender's stable point
    have hlookup : ∀ i, i ≤ asInt64 (msg.lastStableSeqNum + kWorkWindowSize) →
        Meets (fun e => e = .assertion ∧
            (msg.listOfPPInActiveWindow = none ∨ i ≤ msg.lastStableSeqNum))
          (fun _ => ¬ (msg.listOfPPInActiveWindow = none ∨ i ≤ msg.lastStableSeqNum))
          (msg.isPrePrepareInActiveWindow i) := by
      intro i hi
      unfold ReplicaStatusMsg.isPrePrepareInActiveWindow
      refine meets_require_bind (fun hno => ⟨rfl, Or.inl (by simpa using hno)⟩) fun hsome =>
        meets_require_bind (fun hno => ⟨rfl, Or.inr (not_lt.1 hno)⟩) fun hlt =>
        meets_require_bind (fun hno => absurd hi hno) fun _ => .ok ?_
      rintro (hnone | hle)
      · rw [hnone] at hsome
        simp at hsome
      · exact absurd hlt (not_lt.2 hle)
    refine (meets_foldlM (fun done r₁ => OnlySends cfg r r₁ ∧
      ∀ i ∈ done, ¬ (msg.listOfPPInActiveWindow = none ∨ i ≤ msg.lastStableSeqNum))
      ⟨refl r, by simp⟩ ?_).mono ?_
    · rintro done i rest r₁ hsplit ⟨hsent, hdone⟩
      have hi : i ∈ done ++ i :: rest := by simp
      rw [← hsplit, mem_seqNums] at hi
      obtain ⟨hlo, hhi⟩ := hi
      have hnext : ¬ (msg.listOfPPInActiveWindow = none ∨ i ≤ msg.lastStableSeqNum) →
          ∀ j ∈ done ++ [i], ¬ (msg.listOfPPInActiveWindow = none ∨ j ≤ msg.lastStableSeqNum) := by
        intro h j hj
        rcases List.mem_append.1 hj with hj | hj
        · exact hdone j hj
        · rwa [List.mem_singleton.1 hj]
      refine ((hlookup i (le_trans hhi (min_le_right _ _))).weaken ?_).bind fun found hfound => ?_
      · rintro e ⟨rfl, hfails⟩
        refine ⟨rfl, hview, hmsg, by simpa using hprimary, by simpa using hactive,
          le_trans hlo hhi, hfails.imp_right (le_trans hlo)⟩
      · refine meets_ite (fun _ => .ok ⟨hsent, hnext hfound⟩) fun _ => ?_
        have hholds : r₁.mainLog.Holds i := by
          have hi := hw.holds (s := i) (by lia) (by lia)
          obtain ⟨new, rfl, -⟩ := hsent
          exact hi
        exact ((sendPrePrepareOf_sends hholds).mono fun _ h => ⟨hsent.trans h, hnext hfound⟩).weaken
          fun _ => False.elim
    · rintro r₁ ⟨hsent, hall⟩
      refine ⟨hsent, fun hfails => ?_⟩
      obtain ⟨-, -, -, -, hle, hfirst⟩ := hfails
      exact hall _ (mem_seqNums.2 ⟨le_refl _, hle⟩) hfirst

theorem helpWithViews_meets (hw : WellFormed cfg r) :
    Meets (fun e => e = .assertion ∧ (AsksInFirstView cfg r msg ∨ FailsLookup cfg r msg))
      (fun r₁ => OnlySends cfg r r₁ ∧
        ¬ (AsksInFirstView cfg r msg ∨ FailsLookup cfg r msg))
      (r.helpWithViews cfg env msg) := by
  have hnonneg := hw.view_nonneg
  unfold helpWithViews
  refine meets_ite (fun hlt => ?_) fun hge => meets_ite (fun heq => ?_) fun hne => ?_
  · refine ((sendMyViewChangeMsg_meets hw msg.senderId).mono fun r₁ hr₁ => ?_).weaken ?_
    · refine ⟨hr₁.1, ?_⟩
      rintro (⟨hzero, -⟩ | ⟨hview, -⟩)
      · exact hr₁.2 hzero
      · lia
    · rintro e ⟨rfl, hzero⟩
      exact ⟨rfl, Or.inl ⟨hzero, Or.inl (by lia)⟩⟩
  · refine meets_ite (fun hactive => ?_) fun hinactive => ?_
    · refine ((helpInView_meets hw heq hactive).mono fun r₁ hr₁ => ?_).weaken ?_
      · refine ⟨hr₁.1, ?_⟩
        rintro (⟨-, hneg | ⟨-, hfalse, -⟩⟩ | hfails)
        · lia
        · exact absurd (hactive.symm.trans hfalse) (by simp)
        · exact hr₁.2 hfails
      · rintro e ⟨rfl, hfails⟩
        exact ⟨rfl, Or.inr hfails⟩
    · have hinactive' : msg.viewIsActive = false := by simpa using hinactive
      refine ((helpToEnterView_meets hw heq hinactive').mono fun r₁ hr₁ => ?_).weaken ?_
      · refine ⟨hr₁.1, ?_⟩
        rintro (hasks | ⟨-, hactive, -⟩)
        · exact hr₁.2 hasks
        · exact absurd (hinactive'.symm.trans hactive) (by simp)
      · rintro e ⟨rfl, hasks⟩
        exact ⟨rfl, Or.inl hasks⟩
  · refine ((tryToSendStatusReport_sends hw).mono fun _ h => ⟨h, ?_⟩).weaken fun _ => False.elim
    rintro (⟨hzero, hneg | ⟨hview, -⟩⟩ | ⟨hview, -⟩) <;> lia

/-- The conditions of the handler are about the state in which it starts. -/
theorem asks_or_fails_iff (h : OnlySends cfg r r₁) :
    AsksInFirstView cfg r₁ msg ∨ FailsLookup cfg r₁ msg ↔
      AsksInFirstView cfg r msg ∨ FailsLookup cfg r msg := by
  obtain ⟨new, rfl, -⟩ := h
  exact Iff.rfl

/-- A report that is not answered at once has a stable point far below the limit. -/
theorem noOverflow_of_le (hw : WellFormed cfg r) (hfits : msg.Fits)
    (hle : r.lastStableSeqNum ≤ asInt64 (msg.lastStableSeqNum + kWorkWindowSize)) :
    NoOverflow msg := by
  have hpos := hw.stable_nonneg
  obtain ⟨hlo, hhi⟩ := hfits.lastStableSeqNum
  have hlt : msg.lastStableSeqNum + kWorkWindowSize < 2 ^ 63 := by
    by_contra hge
    unfold kWorkWindowSize at *
    rw [asInt64_of_overflow (by lia) (by lia)] at hle
    lia
  unfold NoOverflow checkpointWindowSize kWorkWindowSize at *
  exact ⟨asInt64_of_fits (by lia) (by lia), asInt64_of_fits (by lia) (by lia)⟩

theorem onReplicaStatusMsg_meets (hw : WellFormed cfg r) :
    Meets (fun e => e = .assertion ∧ (msg.Fits →
        msg.lastStableSeqNum % checkpointWindowSize = 0 → StopsReplica cfg r msg))
      (fun r₁ => OnlySends cfg r r₁ ∧ ¬ StopsReplica cfg r msg)
      (r.onReplicaStatusMsg cfg env msg) := by
  unfold onReplicaStatusMsg
  refine meets_require_bind (fun hno => ⟨rfl, fun _ hmod => absurd hmod hno⟩) fun hmod =>
    meets_ite (fun hfar => ?_) fun hle => ?_
  · refine meets_get hw.holds_lastStable (.ok ⟨?_, fun hstops => absurd hfar (not_lt.2 hstops.1)⟩)
    exact onlySends_sendIfSome (f := .checkpoint) (fun _ _ _ => trivial) _ _
  · have hsends : Meets (fun e => e = .assertion ∧ ¬ NoOverflow msg) (OnlySends cfg r)
        (if r.lastStableSeqNum + kWorkWindowSize < msg.lastStableSeqNum then
          r.tryToSendStatusReport cfg env else r.sendUsefulCheckpoints cfg msg) :=
      meets_ite (fun _ => (tryToSendStatusReport_sends hw).weaken fun _ => False.elim) fun _ =>
        sendUsefulCheckpoints_meets hw hmod
    refine (hsends.weaken ?_).bind fun r₁ hr₁ => ?_
    · rintro e ⟨rfl, hno⟩
      exact ⟨rfl, fun hfits _ => absurd (noOverflow_of_le hw hfits (not_lt.1 hle)) hno⟩
    refine ((helpWithViews_meets (hw.onlySends hr₁)).mono fun r₂ hr₂ => ?_).weaken ?_
    · exact ⟨hr₁.trans hr₂.1, fun hstops => hr₂.2 ((asks_or_fails_iff hr₁).2 hstops.2)⟩
    · rintro e ⟨rfl, hstops⟩
      exact ⟨rfl, fun _ _ => ⟨not_lt.1 hle, (asks_or_fails_iff hr₁).1 hstops⟩⟩

theorem onReplicaStatusMsg_does (hfull : M.full) (hw : WellFormed cfg r) :
    Does cfg handler env M r (r.onReplicaStatusMsg cfg env msg) := by
  refine ((onReplicaStatusMsg_meets hw).mono fun _ h => h.1.effects).weaken ?_
  rintro e ⟨rfl, -⟩
  exact fails_assertion hfull

end ConcordBft.ReplicaImp
