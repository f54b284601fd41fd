import ConcordBft.Lib.Machine
import ConcordBft.ViewsManager.Leaving

set_option autoImplicit false

/-! # Runs of a `ViewsManager`

A replica calls its manager with the messages that it receives, when it leaves its view, when its own
view change message gets the number of a later view, and when it tries to enter a view. Over every
such run the messages of the pending view are those that the new view message lists by their digests,
the lower bound of the stable point only grows, and a view is entered with one PrePrepare for each
restricted number. -/

namespace ConcordBft

open Checked List

/-! ## Runs -/

/-- A manager and the current view of its client. -/
structure ViewsRun where
  vm : ViewsManager := {}
  curView : ViewNum := 0

/-- The calls on a manager. -/
inductive ViewsCall where
  | addNewView (m : NewViewMsg)
  | addViewChange (m : ViewChangeMsg)
  | exitFromCurrentView (currentLastStable currentLastExecuted : SeqNum)
      (prevViewInfo : List PrevViewInfo)
  /-- `getMyLatestViewChangeMsg()->setNewViewNumber(nextView)` -/
  | setNewViewNumber (nextView : ViewNum)
  | addPotentiallyMissingPP (p : PrePrepareMsg)
  | tryToEnterView (v : ViewNum) (currentLastStable currentLastExecuted : SeqNum)

namespace ViewsRun

open ViewsManager

variable (cfg : ReplicaConfig)

/-- One call; there is no next state if an assertion fails. -/
def next (r : ViewsRun) : ViewsCall → Option ViewsRun
  | .addNewView m => (r.vm.addNewView cfg m).toOption.map fun p => { r with vm := p.1 }
  | .addViewChange m => (r.vm.addViewChange cfg m).toOption.map fun p => { r with vm := p.1 }
  | .exitFromCurrentView currentLastStable currentLastExecuted prevViewInfo =>
    (r.vm.exitFromCurrentView cfg currentLastStable currentLastExecuted
      prevViewInfo).toOption.map fun p => { r with vm := p.1 }
  | .setNewViewNumber nextView =>
    (r.vm.getMyLatestViewChangeMsg cfg).bind fun own =>
      (own.setNewViewNumber nextView).toOption.map fun own' =>
        { vm := r.vm.updateMyLatestViewChangeMsg cfg own', curView := nextView }
  | .addPotentiallyMissingPP p =>
    (r.vm.addPotentiallyMissingPP p).toOption.map fun q => { r with vm := q.1 }
  | .tryToEnterView v currentLastStable currentLastExecuted =>
    (r.vm.tryToEnterView cfg v currentLastStable currentLastExecuted).toOption.map fun p =>
      { vm := p.1, curView := v }

/-- What a client owes besides the assertions: the digests of PrePrepares are those of their requests,
    and the client goes on to later views only. -/
def Allowed (r : ViewsRun) : ViewsCall → Prop
  | .exitFromCurrentView _ _ prevViewInfo => ∀ it ∈ prevViewInfo, it.prePrepare.DigestFits cfg
  | .setNewViewNumber nextView => r.vm.stat ≠ .IN_VIEW ∧ r.curView < nextView
  | .addPotentiallyMissingPP p => p.DigestFits cfg
  | .tryToEnterView v _ _ => r.curView ≤ v
  | _ => True

instance (m : PrePrepareMsg) : Decidable (m.DigestFits cfg) :=
  inferInstanceAs (Decidable (if m.isNull then _ else _))

instance (r : ViewsRun) : (c : ViewsCall) → Decidable (Allowed cfg r c)
  | .addNewView _ => instDecidableTrue
  | .addViewChange _ => instDecidableTrue
  | .exitFromCurrentView _ _ prevViewInfo =>
    inferInstanceAs (Decidable (∀ it ∈ prevViewInfo, it.prePrepare.DigestFits cfg))
  | .setNewViewNumber nextView =>
    inferInstanceAs (Decidable (r.vm.stat ≠ .IN_VIEW ∧ r.curView < nextView))
  | .addPotentiallyMissingPP p => inferInstanceAs (Decidable (p.DigestFits cfg))
  | .tryToEnterView v _ _ => inferInstanceAs (Decidable (r.curView ≤ v))

/-- Runs of allowed calls. -/
abbrev Reaches : ViewsRun → ViewsRun → Prop := Machine.Reaches (next cfg) (Allowed cfg)

variable {cfg} {r r' : ViewsRun}

/-- `tryToEnterView` is only called outside of views. -/
theorem stat_ne_of_tryToEnterView {vm : ViewsManager} {v : ViewNum} {s e : SeqNum}
    {p : ViewsManager × Option (List PrePrepareMsg)} (h : vm.tryToEnterView cfg v s e = .ok p) :
    vm.stat ≠ .IN_VIEW := (require_bind_eq_ok h).1

/-- **One call** keeps the invariant, and the bound does not fall. -/
theorem next_wf (h : r.vm.Wf cfg r.curView) {c : ViewsCall} (hok : Allowed cfg r c)
    (hn : next cfg r c = some r') :
    r'.vm.Wf cfg r'.curView ∧
      r.vm.lowerBoundStableForPendingView ≤ r'.vm.lowerBoundStableForPendingView := by
  cases c with
  | addNewView m =>
    obtain ⟨p, hp, rfl⟩ := Option.map_eq_some_iff.1 hn
    obtain ⟨hwf, -, hsame⟩ := (addNewView_asserts h (fun _ => True) m).of_ok (eq_ok_of_toOption hp)
    exact ⟨hwf, le_of_eq hsame.bound_eq.symm⟩
  | addViewChange m =>
    obtain ⟨p, hp, rfl⟩ := Option.map_eq_some_iff.1 hn
    have hadd : Asserts _ (r.vm.addViewChange cfg m) :=
      addViewChange_asserts h (fun _ => True) trivial
    obtain ⟨hwf, -, hsame⟩ := hadd.of_ok (eq_ok_of_toOption hp)
    exact ⟨hwf, le_of_eq hsame.bound_eq.symm⟩
  | exitFromCurrentView s e infos =>
    obtain ⟨p, hp, rfl⟩ := Option.map_eq_some_iff.1 hn
    obtain ⟨hwf, hsame⟩ := exitFromCurrentView_wf h hok (eq_ok_of_toOption hp)
    exact ⟨hwf, le_of_eq hsame.bound_eq.symm⟩
  | setNewViewNumber nextView =>
    obtain ⟨own, hown, hset⟩ := Option.bind_eq_some_iff.1 hn
    obtain ⟨own', hown', rfl⟩ := Option.map_eq_some_iff.1 hset
    have hid : own'.genReplicaId = own.genReplicaId := by
      obtain ⟨-, hset⟩ := require_bind_eq_ok (eq_ok_of_toOption hown')
      cases hset
      rfl
    obtain ⟨hwf, -, -, -, hsame⟩ := updateMyLatestViewChangeMsg_spec h hok.1 hok.2 _
      (hid.trans (h.keyed _ own (stored_of_own hown)))
    exact ⟨hwf, le_of_eq hsame.bound_eq.symm⟩
  | addPotentiallyMissingPP p =>
    obtain ⟨q, hq, rfl⟩ := Option.map_eq_some_iff.1 hn
    obtain ⟨hwf, -, hsame⟩ :=
      (addPotentiallyMissingPP_asserts h (fun _ => True) hok).of_ok (eq_ok_of_toOption hq)
    exact ⟨hwf, le_of_eq hsame.bound_eq.symm⟩
  | tryToEnterView v s e =>
    obtain ⟨p, hp, rfl⟩ := Option.map_eq_some_iff.1 hn
    have hcall := eq_ok_of_toOption hp
    exact ((tryToEnterView_asserts (h.raise (stat_ne_of_tryToEnterView hcall) hok) s e).of_ok
      hcall).wf

theorem Reaches.wf (h : Reaches cfg r r') (hr : r.vm.Wf cfg r.curView) : r'.vm.Wf cfg r'.curView :=
  Machine.Reaches.invariant (fun u => u.vm.Wf cfg u.curView) hr
    (fun _ _ _ hu hok hn => (next_wf hu hok hn).1) h

theorem Reaches.bound_le (h : Reaches cfg r r') (hr : r.vm.Wf cfg r.curView) :
    r.vm.lowerBoundStableForPendingView ≤ r'.vm.lowerBoundStableForPendingView := by
  refine (Machine.Reaches.invariant (fun u => u.vm.Wf cfg u.curView ∧
    r.vm.lowerBoundStableForPendingView ≤ u.vm.lowerBoundStableForPendingView)
    ⟨hr, le_refl _⟩ ?_ h).2
  rintro u c u' ⟨hwf, hle⟩ hok hn
  obtain ⟨hwf', hle'⟩ := next_wf hwf hok hn
  lia

theorem Reaches.enters (hr : Reaches cfg {} r) {v : ViewNum} (hv : r.curView ≤ v) {s e : SeqNum}
    {vm' : ViewsManager} {pps : List PrePrepareMsg}
    (hcall : r.vm.tryToEnterView cfg v s e = .ok (vm', some pps)) : Enters cfg v s r.vm vm' pps :=
  (tryToEnterView_asserts ((hr.wf wf_start).raise (stat_ne_of_tryToEnterView hcall) hv) s e).of_ok
    hcall

end ViewsRun

/-! ## Entering a view -/

namespace ViewsManager

variable {cfg : ReplicaConfig} {v : ViewNum} {vm' : ViewsManager} {currentLastStable : SeqNum}
  {pps : List PrePrepareMsg}

/-- The PrePrepare of a restriction. -/
def FitsRestriction (vm : ViewsManager) (pp : PrePrepareMsg) : Prop :=
  ∃ r, vm.restrictionOfPendingView pp.seqNumber = some r ∧
    if r.isNull then pp.isNull = true ∧ pp.digestOfRequests = Digest.nullDigest
    else pp.isNull = false ∧ pp.digestOfRequests = r.digest

/-- View `v` was entered with the messages that its new view message lists, and with the PrePrepares
    that the restrictions demand. -/
structure EnteredExactly (cfg : ReplicaConfig) (v : ViewNum) (currentLastStable : SeqNum)
    (vm' : ViewsManager) (pps : List PrePrepareMsg) : Prop where
  inView : vm'.viewIsActive v = true
  listed : ∃ nv, vm'.newViewMsgOfOfPendingView = some nv ∧ nv.newView = v ∧
    ∀ i vc, vm'.viewChangeMsgsOfPendingView i = some vc →
      i < cfg.numberOfReplicas ∧ vc.genReplicaId = i ∧ vc.newView = v ∧
        nv.includesViewChangeFromReplica i (cfg.getMsgDigest vc) = true
  count : ((List.range cfg.numberOfReplicas).filter fun i =>
    (vm'.viewChangeMsgsOfPendingView i).isSome).length = 2 * cfg.fVal + 2 * cfg.cVal + 1
  seqNumbers : pps.map (·.seqNumber) =
    seqNums (max vm'.minRestrictionOfPendingView (currentLastStable + 1))
      vm'.maxRestrictionOfPendingView
  prePrepares : ∀ pp ∈ pps, pp.viewNumber = v ∧ vm'.FitsRestriction pp

theorem seqNums_eq_nil {first last : SeqNum} (h : last < first) : seqNums first last = [] := by
  apply eq_nil_of_length_eq_zero
  rw [length_seqNums]
  lia

/-- Bounding the first number by the one after the last does not change the list. -/
theorem seqNums_min (first last : SeqNum) :
    seqNums (min (last + 1) first) last = seqNums first last := by
  by_cases h : first ≤ last + 1
  · rw [min_eq_right h]
  · rw [seqNums_eq_nil (by lia), seqNums_eq_nil (by lia)]

theorem Computed.range (h : vm'.Computed cfg vm'.restrictionsHeld)
    (hbound : 0 ≤ vm'.lowerBoundStableForPendingView) :
    (vm'.restrictionsOfPendingView.length : Int) = kWorkWindowSize ∧
      (vm'.minRestrictionOfPendingView = 0 → vm'.maxRestrictionOfPendingView = 0) ∧
      (vm'.minRestrictionOfPendingView ≠ 0 →
        vm'.maxRestrictionOfPendingView < vm'.minRestrictionOfPendingView + kWorkWindowSize) := by
  obtain ⟨arr, hlen, hout⟩ := h
  obtain ⟨⟨hlength, hwindow⟩, -⟩ :=
    (ViewChangeSafetyLogic.computeRestrictions_asserts cfg.safetyLogic _ _ arr).of_ok hout
  have hmin := hwindow.some
  have hnone := hwindow.none
  dsimp only [restrictionsHeld] at hlength hmin hnone
  unfold kWorkWindowSize checkpointWindowSize at *
  refine ⟨by rw [hlength]; exact hlen, ?_⟩
  by_cases helements : cfg.safetyLogic.createIterators vm'.viewChangeMsgsOfPendingView
      (vm'.lowerBoundStableForPendingView + 1) ≠ []
  · lia
  · exact ⟨fun _ => (hnone helements).2, fun hne => absurd (hnone helements).1 hne⟩

theorem OfRestriction.fitsRestriction {pp : PrePrepareMsg}
    (h : OfRestriction cfg v vm' pp.seqNumber pp) {r : Restriction}
    (hr : vm'.restrictionOfPendingView pp.seqNumber = some r) : vm'.FitsRestriction pp := by
  refine ⟨r, hr, ?_⟩
  have hnull : pp.isNull = r.isNull := by
    rw [h.isNull_eq, isRestricted, hr, Option.any_some, Bool.not_not]
  split_ifs with hisNull
  · have hfits := h.digest_fits
    rw [PrePrepareMsg.DigestFits, if_pos (hnull.trans hisNull)] at hfits
    exact ⟨hnull.trans hisNull, hfits⟩
  · rw [Bool.not_eq_true] at hisNull
    exact ⟨hnull.trans hisNull, h.digest_eq r hr hisNull⟩

/-- Every number that the view is entered with has a restriction. -/
theorem Enters.exists_restriction {vm : ViewsManager}
    (h : Enters cfg v currentLastStable vm vm' pps) {pp : PrePrepareMsg} (hpp : pp ∈ pps) :
    ∃ r, vm'.restrictionOfPendingView pp.seqNumber = some r := by
  obtain ⟨hlength, -, hrange⟩ := h.computed.range h.wf.kept.bound_nonneg
  have hmem : pp.seqNumber ∈ pps.map (·.seqNumber) := mem_map_of_mem hpp
  rw [h.seqNumbers] at hmem
  by_cases hmin : vm'.minRestrictionOfPendingView = 0
  · rw [if_pos hmin] at hmem
    simp at hmem
  · rw [if_neg hmin, mem_seqNums] at hmem
    have hidx : (pp.seqNumber - vm'.minRestrictionOfPendingView).toNat <
        vm'.restrictionsOfPendingView.length := by
      lia
    exact ⟨_, getElem?_eq_getElem hidx⟩

theorem length_messages (cfg : ReplicaConfig) (msgs : ReplicaId → Option ViewChangeMsg) :
    ((List.range cfg.numberOfReplicas).filter fun i => (msgs i).isSome).length =
      (cfg.safetyLogic.messages msgs).length := by
  rw [← countP_eq_length_filter, ViewChangeSafetyLogic.messages, length_filterMap_eq_countP]
  rfl

theorem Enters.enteredExactly {vm : ViewsManager} (hvm : 0 ≤ vm.myLatestActiveView)
    (henters : Enters cfg v currentLastStable vm vm' pps) :
    EnteredExactly cfg v currentLastStable vm' pps := by
  obtain ⟨hstat, hactive, hpending⟩ := henters.after
  have hkept := henters.wf.kept
  obtain ⟨hlength, hzero, hrange⟩ := henters.computed.range hkept.bound_nonneg
  obtain ⟨hviews, lb, hlb, -⟩ := henters.set
  have hpositive : vm'.myLatestActiveView ≠ 0 := by
    have hlt := henters.before.2
    lia
  obtain ⟨-, hsome⟩ := hkept.entered hstat hpositive
  obtain ⟨nv, hnv⟩ := Option.isSome_iff_exists.1 hsome
  have hlisted := henters.wf.listed hpending nv hnv
  refine ⟨?_, ⟨nv, hnv, (hkept.newView nv hnv).1.trans hpending, ?_⟩, ?_, ?_, ?_⟩
  · simp [viewIsActive, inView, hstat, hactive]
  · intro i vc hvc
    obtain ⟨hlt, hincludes⟩ := hlisted i vc hvc
    exact ⟨hlt, henters.wf.keyed i vc (Or.inr hvc), hviews i vc hlt hvc, hincludes⟩
  · rw [length_messages]
    exact (ViewChangeSafetyLogic.calcLBStableForView_ok hlb).2
  · rw [henters.seqNumbers]
    split_ifs with hmin
    · rw [seqNums_eq_nil]
      have hle := henters.bound_le
      have hnonneg := hkept.bound_nonneg
      lia
    · rw [seqNums_min]
  · intro pp hpp
    have hof := henters.prePrepares pp hpp
    obtain ⟨r, hr⟩ := henters.exists_restriction hpp
    exact ⟨hof.view_eq, hof.fitsRestriction hr⟩

end ViewsManager

/-- **View entry is exact**: in every state that a manager reaches, the pending view is not behind the
    active one, the lower bound never falls afterwards, and whenever `tryToEnterView` enters a view, it
    does so with the `2F + 2C + 1` messages that the new view message lists and with one PrePrepare for
    each restricted number above the stable point. -/
theorem ViewsRun.entry_exact (cfg : ReplicaConfig) (r : ViewsRun) (hr : Reaches cfg {} r) :
    r.vm.myLatestActiveView ≤ r.vm.myLatestPendingView ∧
      (∀ r', Reaches cfg r r' →
        r.vm.lowerBoundStableForPendingView ≤ r'.vm.lowerBoundStableForPendingView) ∧
      ∀ v currentLastStable currentLastExecuted vm' pps, r.curView ≤ v →
        r.vm.tryToEnterView cfg v currentLastStable currentLastExecuted = .ok (vm', some pps) →
        ViewsManager.EnteredExactly cfg v currentLastStable vm' pps := by
  have hwf := hr.wf ViewsManager.wf_start
  refine ⟨hwf.active_le, fun r' hr' => hr'.bound_le hwf, ?_⟩
  intro v currentLastStable currentLastExecuted vm' pps hle hcall
  exact (hr.enters hle hcall).enteredExactly hwf.kept.active_nonneg

/-- Replica 1 leaves view 0 with a prepared PrePrepare, and two others ask for view 1. -/
def callsBeforeViewOne : List ViewsCall :=
  let element : Element := ⟨1, 2, 0, some ⟨0, [7]⟩⟩
  [.exitFromCurrentView 0 0 [⟨⟨0, 0, 1, .SLOW, false, 2, [⟨4, 1, false, [], 0⟩]⟩, true,
      some ⟨0, 0, 1, [7]⟩⟩],
    .addViewChange ⟨0, 1, 0, [element]⟩, .addViewChange ⟨2, 1, 0, [element]⟩]

theorem entry_exact_callsBeforeViewOne :
    ∃ r vm' pps, ViewsRun.Reaches (fourReplicas 1) {} r ∧
      r.vm.tryToEnterView (fourReplicas 1) 1 0 0 = .ok (vm', some pps) ∧
      ViewsManager.EnteredExactly (fourReplicas 1) 1 0 vm' pps ∧ pps ≠ [] := by
  obtain ⟨r, hreaches, hview, hentry⟩ : ∃ r, ViewsRun.Reaches (fourReplicas 1) {} r ∧
      r.curView ≤ 1 ∧ ((r.vm.tryToEnterView (fourReplicas 1) 1 0 0).toOption.map fun p =>
        p.2.map (·.isEmpty)) = some (some false) :=
    Machine.exists_reaches callsBeforeViewOne (by decide +kernel)
  obtain ⟨⟨vm', entered⟩, hcall, hsome⟩ := Option.map_eq_some_iff.1 hentry
  obtain ⟨pps, rfl, hne⟩ := Option.map_eq_some_iff.1 hsome
  have hcall := eq_ok_of_toOption hcall
  have hexact :=
    (ViewsRun.entry_exact (fourReplicas 1) r hreaches).2.2 1 0 0 vm' pps hview hcall
  refine ⟨r, vm', pps, hreaches, hcall, hexact, ?_⟩
  intro hnil
  simp [hnil] at hne

/-! ## The messages that a new view message lists -/

open NewViewMsg

variable {elements : List (ReplicaId × Digest)}

theorem NewViewMsg.sorted_of_checkElements (h : checkElements elements = true) :
    elements.Pairwise fun e e' => e.1 < e'.1 := by
  have hchain : elements.IsChain fun e e' => e.1 < e'.1 := by
    induction elements using checkElements.induct with
    | case1 => exact .nil
    | case2 e => exact .singleton e
    | case3 e e' rest ih =>
      simp only [checkElements, Bool.and_eq_true, decide_eq_true_eq] at h
      exact .cons_cons h.1.2 (ih h.2)
  exact hchain.pairwise

theorem NewViewMsg.mem_of_includesFrom {i : ReplicaId} {d : Digest}
    (h : includesFrom i d elements = true) : (i, d) ∈ elements := by
  induction elements with
  | nil => simp [includesFrom] at h
  | cons e rest ih =>
    unfold includesFrom at h
    split_ifs at h with hid
    · obtain rfl : d = e.2 := by simpa using h
      exact hid ▸ mem_cons_self
    · exact mem_cons_of_mem _ (ih h)

theorem NewViewMsg.includes_iff {cfg : ReplicaConfig} {nv : NewViewMsg}
    (h : nv.ToActualMsgType cfg = true) (i : ReplicaId) (d : Digest) :
    nv.includesViewChangeFromReplica i d = true ↔ (i, d) ∈ nv.elements := by
  simp only [NewViewMsg.ToActualMsgType, Bool.and_eq_true] at h
  exact ⟨mem_of_includesFrom, includesFrom_of_mem (sorted_of_checkElements h.2)⟩

namespace ViewsManager

variable {cfg : ReplicaConfig} {vm : ViewsManager} {v : ViewNum} {nv : NewViewMsg}

theorem mem_relatedVCMsgsOfNewView {i : ReplicaId} (hi : i ∈ vm.relatedVCMsgsOfNewView cfg v nv) :
    ∃ vc, vm.viewChangeMessages i = some vc ∧
      nv.includesViewChangeFromReplica vc.genReplicaId (cfg.getMsgDigest vc) = true :=
  (Option.any_eq_true _ _).1 (mem_filter.1 hi).2

theorem nodup_relatedVCMsgsOfNewView : (vm.relatedVCMsgsOfNewView cfg v nv).Nodup :=
  (nodup_range.filter _).filter _

/-- The messages found for a new view message were generated by the replicas of their places. -/
theorem Keyed.generators_eq (h : vm.Keyed) {related : List ReplicaId}
    (hstored : ∀ i ∈ related, ∃ vc, vm.viewChangeMessages i = some vc) :
    (related.filterMap vm.viewChangeMessages).map (·.genReplicaId) = related := by
  induction related with
  | nil => rfl
  | cons i rest ih =>
    obtain ⟨vc, hvc⟩ := hstored i mem_cons_self
    rw [filterMap_cons_some hvc, map_cons, h i vc (Or.inl hvc),
      ih fun j hj => hstored j (mem_cons_of_mem _ hj)]

theorem Keyed.length_related_le (h : vm.Keyed) (hnv : nv.ToActualMsgType cfg = true) :
    (vm.relatedVCMsgsOfNewView cfg v nv).length ≤ 2 * cfg.fVal + 2 * cfg.cVal + 1 := by
  have hcount : nv.elements.length = 2 * cfg.fVal + 2 * cfg.cVal + 1 := by
    simp only [NewViewMsg.ToActualMsgType, Bool.and_eq_true, beq_iff_eq] at hnv
    exact hnv.1.2
  rw [← hcount, ← length_map fun e : ReplicaId × Digest => e.1]
  refine nodup_relatedVCMsgsOfNewView.length_le_of_subset fun i hi => ?_
  obtain ⟨vc, hvc, hincludes⟩ := mem_relatedVCMsgsOfNewView hi
  rw [h i vc (Or.inl hvc), includes_iff hnv] at hincludes
  exact mem_map_of_mem hincludes

/-- No assertion fails when the messages of an accepted new view message are moved. -/
theorem Wf.tryMoveToPendingViewAsNonPrimary_returns {w : ViewNum} (h : vm.Wf cfg w)
    (hstat : vm.stat = .NO_VIEW) (hlt : vm.myLatestPendingView < v)
    (hprimary : cfg.primaryOfView v ≠ cfg.myId)
    (haccepted : ∀ nv, vm.newViewMessages (cfg.primaryOfView v) = some nv →
      nv.ToActualMsgType cfg = true) :
    ∃ p, vm.tryMoveToPendingViewAsNonPrimary cfg v = .ok p := by
  obtain ⟨hwf, -, -, hnone, hnv⟩ := resetDataOfLatestPending_spec h hstat (fun _ => False)
  have hviews : (vm.resetDataOfLatestPending cfg).newViewMessages = vm.newViewMessages := by
    unfold resetDataOfLatestPending
    dsimp only
    split_ifs <;> rfl
  unfold tryMoveToPendingViewAsNonPrimary
  simp only [assert_bind_of hlt, assert_bind_of hprimary, hviews]
  split
  next => exact ⟨_, rfl⟩
  next nv hstored =>
    split_ifs with hfew
    · exact ⟨_, rfl⟩
    · have hle := hwf.keyed.length_related_le (v := v) (haccepted nv hstored)
      have heq := le_antisymm hle (not_lt.1 fun hshort => hfew (Or.inr hshort))
      simp only [assert_bind_of heq, assert_bind_of hnv, assert_bind_of fun i _ => hnone i]
      exact ⟨_, rfl⟩

end ViewsManager

/-- **Membership in a new view message**: an accepted message answers for exactly the pairs that it
    lists; whatever is stored, one message for each replica, at most `2F + 2C + 1` stored messages match
    it, generated by distinct replicas; and a replica that is not the primary moves the messages that
    it finds to the pending view without a failed assertion. -/
theorem ViewsRun.newView_membership (cfg : ReplicaConfig) :
    (∀ nv : NewViewMsg, nv.ToActualMsgType cfg = true → ∀ i d,
      nv.includesViewChangeFromReplica i d = true ↔ (i, d) ∈ nv.elements) ∧
    (∀ vm : ViewsManager, vm.Keyed → ∀ v, ∀ nv : NewViewMsg, nv.ToActualMsgType cfg = true →
      (vm.relatedVCMsgsOfNewView cfg v nv).length ≤ 2 * cfg.fVal + 2 * cfg.cVal + 1 ∧
      (((vm.relatedVCMsgsOfNewView cfg v nv).filterMap vm.viewChangeMessages).map
        (·.genReplicaId)).Nodup) ∧
    ∀ r, Reaches cfg {} r → r.vm.Keyed ∧ ∀ v, r.vm.myLatestPendingView < v →
      cfg.primaryOfView v ≠ cfg.myId →
      (∀ nv, r.vm.newViewMessages (cfg.primaryOfView v) = some nv →
        nv.ToActualMsgType cfg = true) →
      ∃ p, { r.vm with stat := .NO_VIEW }.tryMoveToPendingViewAsNonPrimary cfg v = .ok p := by
  refine ⟨fun nv hnv => includes_iff hnv, fun vm hkeyed v nv hnv => ?_, fun r hr => ?_⟩
  · refine ⟨hkeyed.length_related_le hnv, ?_⟩
    rw [hkeyed.generators_eq fun i hi =>
      (ViewsManager.mem_relatedVCMsgsOfNewView hi).imp fun _ => And.left]
    exact ViewsManager.nodup_relatedVCMsgsOfNewView
  · have hwf := hr.wf ViewsManager.wf_start
    exact ⟨hwf.keyed, fun v hlt hprimary haccepted =>
      hwf.noView.tryMoveToPendingViewAsNonPrimary_returns rfl hlt hprimary haccepted⟩

/-- Replica 2 finds the messages of replicas 0, 2 and 3 that the primary of view 1 lists. -/
theorem newView_membership_ofPrimary :
    let vm : ViewsManager := { viewChangeMessages := fun i =>
      if i ∈ [0, 2, 3] then some ⟨i, 1, 0, []⟩ else none }
    let nv : NewViewMsg := ⟨1, 1, [0, 2, 3].map fun i =>
      (i, (fourReplicas 2).getMsgDigest ⟨i, 1, 0, []⟩)⟩
    nv.ToActualMsgType (fourReplicas 2) = true ∧
      vm.relatedVCMsgsOfNewView (fourReplicas 2) 1 nv = [0, 2, 3] ∧
      (vm.relatedVCMsgsOfNewView (fourReplicas 2) 1 nv).length ≤ 3 := by
  refine ⟨by decide +kernel, by decide +kernel, ?_⟩
  refine ((ViewsRun.newView_membership (fourReplicas 2)).2.1 _ ?_ _ _ (by decide +kernel)).1
  rintro i vc (hvc | hvc)
  · dsimp only at hvc
    split_ifs at hvc
    exact (Option.some.inj hvc) ▸ rfl
  · simp at hvc

end ConcordBft
