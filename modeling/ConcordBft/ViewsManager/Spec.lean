import ConcordBft.ViewsManager

set_option autoImplicit false

/-! # What the operations of a `ViewsManager` do

`ViewsManager.Wf cfg v vm` is the invariant of the manager of a replica whose current view is `v`. In
particular, while the replica waits for PrePrepares, the restrictions that it holds are those that
`computeRestrictions` returned for the messages of the pending view. `Quiet` says what an operation
leaves alone that neither enters nor leaves a view, and `Enters` says with which PrePrepares a view
is entered. -/

namespace ConcordBft

open Checked ViewChangeSafetyLogic List Function

/-! ## The selection rule fails no other check -/

namespace ViewChangeSafetyLogic

theorem calcLBStableForView_asserts (l : ViewChangeSafetyLogic)
    (msgs : ReplicaId → Option ViewChangeMsg) :
    Asserts (fun _ => True) (l.calcLBStableForView msgs) := by
  unfold calcLBStableForView
  refine asserts_bind fun _ => asserts_bind fun _ => ?_
  dsimp only
  split
  · exact .ok trivial
  · exact asserts_error

variable {msgs : ReplicaId → Option ViewChangeMsg}

theorem mem_messages {l : ViewChangeSafetyLogic} {vc : ViewChangeMsg} :
    vc ∈ l.messages msgs ↔ ∃ i, i < l.N ∧ msgs i = some vc := by
  simp [messages]

/-- The lower bound exists for `2F + 2C + 1` messages for one view. -/
theorem calcLBStableForView_ok {l : ViewChangeSafetyLogic} {lb : SeqNum}
    (h : l.calcLBStableForView msgs = .ok lb) :
    (∀ vc ∈ l.messages msgs, ∀ vc' ∈ l.messages msgs, vc.newView = vc'.newView) ∧
      (l.messages msgs).length = 2 * l.F + 2 * l.C + 1 := by
  obtain ⟨hview, h⟩ := require_bind_eq_ok h
  exact ⟨hview, (require_bind_eq_ok h).1⟩

theorem currentElements_asserts (s : SeqNum) (its : List ElementsIterator) :
    Asserts (fun _ => True) (currentElements s its) := by
  induction its with
  | nil => exact .ok trivial
  | cons it rest ih =>
    unfold currentElements
    split
    · exact asserts_error
    · exact asserts_bind fun _ => ih.bind fun _ _ => .ok trivial

theorem checkSlowPathCertificates_asserts (last : Option SlowElem) (set : List SlowElem) :
    Asserts (fun _ => True) (checkSlowPathCertificates last set) := by
  induction set generalizing last with
  | nil => cases last <;> exact .ok trivial
  | cons e rest ih =>
    cases last with
    | none => exact ih (some e)
    | some l =>
      unfold checkSlowPathCertificates
      refine asserts_ite (fun _ => .ok trivial) fun _ => ?_
      refine asserts_ite (fun _ => ?_) fun _ => ih (some e)
      exact asserts_bind fun _ => ih (some e)

theorem selectSlow_asserts (l : ViewChangeSafetyLogic) (s : SeqNum) (set : List SlowElem) :
    Asserts (fun _ => True) (l.selectSlow s set) := by
  induction set with
  | nil => exact .ok trivial
  | cons e rest ih =>
    unfold selectSlow
    exact asserts_bind fun _ => asserts_bind fun _ => asserts_ite (fun _ => .ok trivial) fun _ => ih

theorem advanceIterators_asserts (s upperBound : SeqNum) (n : ℕ) (its : List ElementsIterator) :
    Asserts (fun _ => True) (advanceIterators s upperBound n its) := by
  induction n generalizing its with
  | zero => exact .ok trivial
  | succ n ih =>
    cases its with
    | nil => exact .ok trivial
    | cons it rest =>
      unfold advanceIterators
      split
      · exact asserts_error
      · refine asserts_ite (fun _ => (ih rest).bind fun _ _ => .ok trivial) fun _ => ?_
        exact asserts_ite (fun _ => (ih rest).bind fun _ _ => .ok trivial) fun _ => ih _

theorem computeRestrictionsForSeqNum_asserts (l : ViewChangeSafetyLogic) (s upperBound : SeqNum)
    (its : List ElementsIterator) :
    Asserts (fun _ => True) (l.computeRestrictionsForSeqNum s its upperBound) := by
  unfold computeRestrictionsForSeqNum
  refine asserts_bind fun _ => asserts_bind fun _ => ?_
  refine (currentElements_asserts s its).bind fun elems _ => ?_
  refine (checkSlowPathCertificates_asserts none _).bind fun ok _ => asserts_bind fun _ => ?_
  refine (selectSlow_asserts l s _).bind fun slow _ => ?_
  refine (advanceIterators_asserts s upperBound _ its).bind fun its' _ => ?_
  split <;> exact .ok trivial

/-- The loop keeps the length of the array, and no restricted number is above the last one. -/
theorem computeRestrictionsFrom_asserts (l : ViewChangeSafetyLogic) (upperBound cur last : SeqNum)
    (its : List ElementsIterator) (arr : List Restriction) :
    Asserts (fun out => out.1.length = arr.length ∧ (out.2 = last ∨ cur ≤ out.2) ∧
        ∀ (k : ℕ) (r : Restriction), out.1[k]? = some r → r.isNull = false →
          cur + (k : Int) ≤ out.2)
      (l.computeRestrictionsFrom upperBound cur its last arr) := by
  induction arr generalizing cur last its with
  | nil => exact .ok ⟨rfl, Or.inl rfl, nofun⟩
  | cons r rest ih =>
    unfold computeRestrictionsFrom
    refine asserts_ite (fun _ => .ok ⟨by simp, Or.inl rfl, fun k r' hr' hnull => ?_⟩) fun _ => ?_
    · rw [getElem?_map, Option.map_eq_some_iff] at hr'
      obtain ⟨r₀, -, rfl⟩ := hr'
      simp at hnull
    refine (computeRestrictionsForSeqNum_asserts l cur upperBound its).bind fun out _ => ?_
    refine (ih _ _ _).bind fun out' hout' => ?_
    obtain ⟨hlen, hlast, hbelow⟩ := hout'
    refine .ok ⟨by simp [hlen], ?_, fun k r' hr' hnull => ?_⟩
    · rcases hlast with heq | hle
      · rw [heq]
        split_ifs
        · simp
        · exact Or.inl rfl
      · exact Or.inr (by lia)
    · cases k with
      | zero =>
        obtain rfl := Option.some.inj hr'
        have hrestricted : (out.1 && out.2.1 != l.nullDigest) = true := by simpa using hnull
        rw [if_pos hrestricted] at hlast
        rcases hlast with heq | hle
        · simp [heq]
        · lia
      | succ k =>
        have := hbelow k r' (by simpa using hr') hnull
        lia

end ViewChangeSafetyLogic

/-- The first and the last restricted number for the lower bound `lb`: there are none without
    elements above `lb`. -/
structure RestrictionsOfView.InWindow (lb : SeqNum) (hasElements : Prop)
    (out : RestrictionsOfView) : Prop where
  none : ¬ hasElements → out.minRestrictedSeqNum = 0 ∧ out.maxRestrictedSeqNum = 0
  some : hasElements → out.minRestrictedSeqNum = lb + 1 ∧
    (out.maxRestrictedSeqNum = lb + kWorkWindowSize - checkpointWindowSize ∨
      out.maxRestrictedSeqNum = lb + kWorkWindowSize)

theorem ViewChangeSafetyLogic.computeRestrictions_asserts (l : ViewChangeSafetyLogic)
    (msgs : ReplicaId → Option ViewChangeMsg) (lb : SeqNum) (arr : List Restriction) :
    Asserts (fun out => (out.restrictions.length = arr.length ∧
        out.InWindow lb (l.createIterators msgs (lb + 1) ≠ [])) ∧
      ∀ (k : ℕ) (r : Restriction), out.restrictions[k]? = some r → r.isNull = false →
        kWorkWindowSize - checkpointWindowSize ≤ k → l.createIterators msgs (lb + 1) ≠ [] →
        out.maxRestrictedSeqNum = lb + kWorkWindowSize) (l.computeRestrictions msgs lb arr) := by
  unfold computeRestrictions
  refine (computeRestrictionsFrom_asserts l _ _ _ _ arr).bind fun out hout => ?_
  obtain ⟨hlen, -, hbelow⟩ := hout
  refine asserts_ite (fun hnil => ?_) fun hne => ?_
  · exact .ok ⟨⟨hlen, fun _ => ⟨rfl, rfl⟩, fun hsome => absurd hnil hsome⟩,
      fun _ _ _ _ _ hsome => absurd hnil hsome⟩
  · refine asserts_ite (fun hpatch => ?_) fun _ => ?_
    · refine .ok ⟨⟨hlen, fun hno => absurd hne hno, fun _ => ⟨rfl, Or.inl rfl⟩⟩, ?_⟩
      -- the patch lowers the maximum only below all restrictions of the last part
      intro k r hr hnull hk _
      have := hbelow k r hr hnull
      lia
    · exact .ok ⟨⟨hlen, fun hno => absurd hne hno, fun _ => ⟨rfl, Or.inr rfl⟩⟩,
        fun _ _ _ _ _ _ => rfl⟩

/-- The digest of a PrePrepare is that of its requests, or the null digest if it is a null one. -/
def PrePrepareMsg.DigestFits (cfg : ReplicaConfig) (m : PrePrepareMsg) : Prop :=
  if m.isNull then m.digestOfRequests = Digest.nullDigest
  else m.digestOfRequests = cfg.computeRequests m.requests

/-! ## The digests in a new view message -/

namespace NewViewMsg

/-- The ids of the elements grow. -/
def Sorted (m : NewViewMsg) : Prop := m.elements.Pairwise fun e e' => e.1 < e'.1

theorem includesFrom_of_mem {i : ReplicaId} {d : Digest} {elements : List (ReplicaId × Digest)}
    (hsorted : elements.Pairwise fun e e' => e.1 < e'.1) (hmem : (i, d) ∈ elements) :
    includesFrom i d elements = true := by
  induction elements with
  | nil => simp at hmem
  | cons e rest ih =>
    obtain ⟨hhead, hrest⟩ := pairwise_cons.1 hsorted
    rcases mem_cons.1 hmem with rfl | hmem
    · simp [includesFrom]
    · have hlt : e.1 < i := hhead (i, d) hmem
      unfold includesFrom
      rw [if_neg (ne_of_lt hlt), if_neg (lt_asymm hlt)]
      exact ih hrest hmem

theorem sorted_concat {m : NewViewMsg} {i : ReplicaId} (hsorted : m.Sorted)
    (hlast : ∀ e ∈ m.elements.getLast?, e.1 < i) : ∀ e ∈ m.elements, e.1 < i := by
  intro e he
  obtain ⟨l, hl⟩ : ∃ l, m.elements.getLast? = some l := by
    cases hget : m.elements.getLast? with
    | none => simp [getLast?_eq_none_iff.1 hget] at he
    | some l => exact ⟨l, rfl⟩
  have hlt := hlast l (by simp [hl])
  obtain ⟨init, hinit⟩ := getLast?_eq_some_iff.1 hl
  rw [Sorted, hinit] at hsorted
  rw [hinit] at he
  rcases mem_append.1 he with he | he
  · exact lt_trans ((pairwise_append.1 hsorted).2.2 e he l (by simp)) hlt
  · rw [mem_singleton.1 he]
    exact hlt

theorem addElement_asserts {m : NewViewMsg} (hsorted : m.Sorted) (i : ReplicaId) (d : Digest) :
    Asserts (fun m' => m'.Sorted ∧ m' = { m with elements := m.elements ++ [(i, d)] })
      (m.addElement i d) := by
  unfold addElement
  apply asserts_bind
  intro hlast
  apply Asserts.ok
  refine ⟨?_, rfl⟩
  apply pairwise_append.2
  refine ⟨hsorted, pairwise_singleton _ _, ?_⟩
  intro e he e' he'
  rw [mem_singleton.1 he']
  exact sorted_concat hsorted hlast e he

end NewViewMsg

namespace ViewsManager

/-! ## The invariant -/

section

variable (cfg : ReplicaConfig) (v : ViewNum) (vm : ViewsManager)

/-- The manager keeps the message `vc` for replica `i`. -/
def Stored (i : ReplicaId) (vc : ViewChangeMsg) : Prop :=
  vm.viewChangeMessages i = some vc ∨ vm.viewChangeMsgsOfPendingView i = some vc

/-- Messages are stored under the id of the replica that generated them. -/
def Keyed : Prop := ∀ i vc, vm.Stored i vc → vc.genReplicaId = i

/-- The messages of the pending view are listed in its new view message. -/
def Listed : Prop :=
  ∀ nv, vm.newViewMsgOfOfPendingView = some nv → ∀ i vc, vm.viewChangeMsgsOfPendingView i = some vc →
    i < cfg.numberOfReplicas ∧ nv.includesViewChangeFromReplica i (cfg.getMsgDigest vc) = true

/-- The messages of the pending view are a set for view `v`, and the lower bound is at least the one
    that they give. -/
def SetForView : Prop :=
  (∀ i vc, i < cfg.numberOfReplicas → vm.viewChangeMsgsOfPendingView i = some vc →
    vc.newView = v) ∧
  ∃ lb, cfg.safetyLogic.calcLBStableForView vm.viewChangeMsgsOfPendingView = .ok lb ∧
    lb ≤ vm.lowerBoundStableForPendingView

/-- `out` are the restrictions of the messages of the pending view. -/
def Computed (out : RestrictionsOfView) : Prop :=
  ∃ arr : List Restriction, (arr.length : Int) = kWorkWindowSize ∧
    cfg.safetyLogic.computeRestrictions vm.viewChangeMsgsOfPendingView
      vm.lowerBoundStableForPendingView arr = .ok out

/-- What the manager holds about the restrictions of the pending view. -/
def restrictionsHeld : RestrictionsOfView :=
  ⟨vm.minRestrictionOfPendingView, vm.maxRestrictionOfPendingView, vm.restrictionsOfPendingView⟩

/-- What the messages of the manager are numbered by, and who sent them. -/
structure Kept : Prop where
  bound_nonneg : 0 ≤ vm.lowerBoundStableForPendingView
  keys : ∀ e ∈ vm.collectionOfPrePrepareMsgs, e.2.seqNumber = e.1
  numbers : vm.stat = .PENDING_WITH_RESTRICTIONS → vm.minRestrictionOfPendingView ≠ 0 →
    ∀ i pp, vm.minRestrictionOfPendingView ≤ i → i ≤ vm.maxRestrictionOfPendingView →
      vm.prePrepareMsgOfRestriction i = some pp → pp.seqNumber = i
  newViews : ∀ i nv, vm.newViewMessages i = some nv → nv.senderId = i
  newView : ∀ nv, vm.newViewMsgOfOfPendingView = some nv →
    nv.newView = vm.myLatestPendingView ∧ nv.senderId = cfg.primaryOfView nv.newView
  waiting : vm.stat = .PENDING_WITH_RESTRICTIONS → vm.newViewMsgOfOfPendingView.isSome = true
  /-- Only the first view has no new view message. -/
  entered : vm.stat = .IN_VIEW → vm.myLatestActiveView ≠ 0 →
    vm.myLatestPendingView = vm.myLatestActiveView ∧ vm.newViewMsgOfOfPendingView.isSome = true
  active_nonneg : 0 ≤ vm.myLatestActiveView
  first : vm.stat = .IN_VIEW → vm.myLatestActiveView = 0 → vm.newViewMsgOfOfPendingView = none

/-- Restrictions are computed when the stable point has reached the lower bound. -/
def Within (lastStable : SeqNum) : Prop :=
  vm.stat = .PENDING_WITH_RESTRICTIONS → vm.lowerBoundStableForPendingView ≤ lastStable

structure Wf : Prop where
  pending_le : vm.myLatestPendingView ≤ v
  inView : vm.stat = .IN_VIEW → vm.myLatestActiveView = v
  restrictions_length : (vm.restrictionsOfPendingView.length : Int) = kWorkWindowSize
  set : vm.stat = .PENDING ∨ vm.stat = .PENDING_WITH_RESTRICTIONS → vm.myLatestPendingView = v →
    vm.SetForView cfg v
  computed : vm.stat = .PENDING_WITH_RESTRICTIONS → vm.myLatestPendingView = v →
    vm.Computed cfg vm.restrictionsHeld
  collection : ∀ e ∈ vm.collectionOfPrePrepareMsgs, e.2.isNull = false ∧ e.2.DigestFits cfg
  forRestrictions : ∀ idx pp, vm.prePrepareMsgsOfRestrictions idx = some pp →
    pp.isNull = false ∧ pp.DigestFits cfg
  /-- A PrePrepare that is kept for a restriction has its digest. -/
  digests : vm.stat = .PENDING_WITH_RESTRICTIONS → vm.minRestrictionOfPendingView ≠ 0 →
    ∀ i pp r, vm.minRestrictionOfPendingView ≤ i → i ≤ vm.maxRestrictionOfPendingView →
      vm.prePrepareMsgOfRestriction i = some pp → vm.restrictionOfPendingView i = some r →
      pp.digestOfRequests = r.digest
  noNewView : vm.newViewMsgOfOfPendingView = none → ∀ i, vm.viewChangeMsgsOfPendingView i = none
  active_le : vm.myLatestActiveView ≤ vm.myLatestPendingView
  keyed : vm.Keyed
  listed : vm.myLatestPendingView = v → vm.Listed cfg
  kept : vm.Kept cfg

/-- An operation that neither enters nor leaves a view; it may store messages that satisfy
    `received`. -/
structure Quiet (received : ViewChangeMsg → Prop) (vm vm' : ViewsManager) : Prop where
  stored : ∀ i vc, vm'.Stored i vc → vm.Stored i vc ∨ (received vc ∧ i = vc.genReplicaId)
  own : vm'.getMyLatestViewChangeMsg cfg = vm.getMyLatestViewChangeMsg cfg
  active : ∀ w, vm'.viewIsActive w = vm.viewIsActive w

/-- `pp` is the PrePrepare with which view `v` starts at `i`. -/
structure OfRestriction (i : SeqNum) (pp : PrePrepareMsg) : Prop where
  seqNumber_eq : pp.seqNumber = i
  view_eq : pp.viewNumber = v
  path_eq : pp.firstPath = .SLOW
  digest_fits : pp.DigestFits cfg
  isNull_eq : pp.isNull = !vm.isRestricted i
  digest_eq : ∀ r, vm.restrictionOfPendingView i = some r → r.isNull = false →
    pp.digestOfRequests = r.digest

/-- The view `v` is entered with the PrePrepares `pps`. -/
structure Enters (currentLastStable : SeqNum) (vm vm' : ViewsManager) (pps : List PrePrepareMsg) :
    Prop where
  stored : ∀ i vc, vm'.Stored i vc → vm.Stored i vc
  own : vm'.getMyLatestViewChangeMsg cfg = vm.getMyLatestViewChangeMsg cfg
  before : vm.stat ≠ .IN_VIEW ∧ vm.myLatestActiveView < v
  grows : vm.lowerBoundStableForPendingView ≤ vm'.lowerBoundStableForPendingView
  after : vm'.stat = .IN_VIEW ∧ vm'.myLatestActiveView = v ∧ vm'.myLatestPendingView = v
  wf : vm'.Wf cfg v
  bound_le : vm'.lowerBoundStableForPendingView ≤ currentLastStable
  set : vm'.SetForView cfg v
  computed : vm'.Computed cfg vm'.restrictionsHeld
  seqNumbers : pps.map (·.seqNumber) =
    if vm'.minRestrictionOfPendingView = 0 then []
    else seqNums (min (vm'.maxRestrictionOfPendingView + 1)
      (max vm'.minRestrictionOfPendingView (currentLastStable + 1))) vm'.maxRestrictionOfPendingView
  prePrepares : ∀ pp ∈ pps, OfRestriction cfg v vm' pp.seqNumber pp

end

variable {cfg : ReplicaConfig} {v : ViewNum} {vm vm' : ViewsManager} {currentLastStable : SeqNum}
  {p : ViewsManager × Option (List PrePrepareMsg)} {vm₁ : ViewsManager}

/-- The manager of a replica that starts is in the first view. -/
theorem wf_start : Wf cfg 0 ({} : ViewsManager) where
  pending_le := le_refl 0
  inView := fun _ => rfl
  restrictions_length := newRestrictions_length
  set := nofun
  computed := nofun
  collection := nofun
  forRestrictions := nofun
  digests := nofun
  noNewView := fun _ _ => rfl
  active_le := le_refl 0
  keyed := by simp [Keyed, Stored]
  listed := by simp [Listed]
  kept := {
    bound_nonneg := le_refl 0
    keys := nofun
    numbers := nofun
    newViews := nofun
    newView := nofun
    waiting := nofun
    entered := fun _ hne => absurd rfl hne
    active_nonneg := le_refl 0
    first := fun _ _ => rfl }

theorem viewIsActive_eq_false (h : vm.stat ≠ .IN_VIEW) (w : ViewNum) :
    vm.viewIsActive w = false := by
  simp [viewIsActive, inView, h]

theorem viewIsActive_eq_of_ne (h : vm.stat ≠ .IN_VIEW) (h' : vm'.stat ≠ .IN_VIEW) (w : ViewNum) :
    vm'.viewIsActive w = vm.viewIsActive w :=
  (viewIsActive_eq_false h' w).trans (viewIsActive_eq_false h w).symm

theorem Quiet.refl (received : ViewChangeMsg → Prop) (vm : ViewsManager) :
    Quiet cfg received vm vm :=
  ⟨fun _ _ h => Or.inl h, rfl, fun _ => rfl⟩

theorem Quiet.trans {received : ViewChangeMsg → Prop} (h : Quiet cfg received vm vm₁)
    (h' : Quiet cfg received vm₁ vm') : Quiet cfg received vm vm' where
  stored := by
    intro i vc hvc
    rcases h'.stored i vc hvc with hvc | hvc
    · exact h.stored i vc hvc
    · exact Or.inr hvc
  own := h'.own.trans h.own
  active := fun w => (h'.active w).trans (h.active w)

/-- What an operation on the messages keeps besides them. -/
structure SameViews (vm vm' : ViewsManager) : Prop where
  stat_eq : vm'.stat = vm.stat
  activeView_eq : vm'.myLatestActiveView = vm.myLatestActiveView
  pendingView_eq : vm'.myLatestPendingView = vm.myLatestPendingView
  bound_eq : vm'.lowerBoundStableForPendingView = vm.lowerBoundStableForPendingView

theorem SameViews.viewIsActive_eq (h : SameViews vm vm') (w : ViewNum) :
    vm'.viewIsActive w = vm.viewIsActive w := by
  unfold viewIsActive inView
  rw [h.stat_eq, h.activeView_eq]

theorem SameViews.refl (vm : ViewsManager) : SameViews vm vm := ⟨rfl, rfl, rfl, rfl⟩

theorem SameViews.within (h : SameViews vm vm') {n : SeqNum} (hwithin : vm.Within n) :
    vm'.Within n := by
  intro hstat
  rw [h.bound_eq]
  exact hwithin (h.stat_eq.symm.trans hstat)

theorem Quiet.keyed {received : ViewChangeMsg → Prop} (h : Quiet cfg received vm vm')
    (hkeyed : vm.Keyed) : vm'.Keyed := by
  intro i vc hvc
  rcases h.stored i vc hvc with hold | ⟨-, hid⟩
  · exact hkeyed i vc hold
  · exact hid.symm

/-- An operation that receives nothing stores no new message. -/
theorem Quiet.old (h : Quiet cfg (fun _ => False) vm vm') {i : ReplicaId} {vc : ViewChangeMsg}
    (hvc : vm'.Stored i vc) : vm.Stored i vc :=
  (h.stored i vc hvc).resolve_right fun hno => hno.1

theorem stored_of_own {own : ViewChangeMsg} (h : vm.getMyLatestViewChangeMsg cfg = some own) :
    vm.Stored cfg.myId own := by
  rcases Option.or_eq_some_iff.1 h with hpending | ⟨-, hother⟩
  · exact Or.inr hpending
  · exact Or.inl hother

/-- Outside of views, the client may go on to a later view. -/
theorem Wf.raise (h : vm.Wf cfg v) (hstat : vm.stat ≠ .IN_VIEW) {v' : ViewNum} (hv : v ≤ v') :
    vm.Wf cfg v' := by
  rcases eq_or_lt_of_le hv with rfl | hlt
  · exact h
  have hpending : vm.myLatestPendingView ≠ v' := by
    have := h.pending_le
    lia
  exact { h with
    pending_le := le_trans h.pending_le hv
    inView := fun hno => absurd hno hstat
    set := fun _ hno => absurd hno hpending
    computed := fun _ hno => absurd hno hpending
    listed := fun hno => absurd hno hpending }

/-! ## Receiving messages -/

theorem eq_or_of_update {ι α : Type} [DecidableEq ι] {f : ι → Option α} {i j : ι} {x y : α}
    (h : Function.update f j (some x) i = some y) : (i = j ∧ y = x) ∨ f i = some y := by
  by_cases hi : i = j
  · subst hi
    rw [update_self] at h
    exact Or.inl ⟨rfl, (Option.some.inj h).symm⟩
  · rw [update_of_ne hi] at h
    exact Or.inr h

theorem of_update_none {ι α : Type} [DecidableEq ι] {f : ι → Option α} {i j : ι} {x : α}
    (h : Function.update f j none i = some x) : f i = some x := by
  by_cases hi : i = j
  · subst hi
    simp at h
  · rwa [update_of_ne hi] at h

section

variable (h : vm.Wf cfg v) (received : ViewChangeMsg → Prop)
include h received

theorem addNewView_asserts (m : NewViewMsg) :
    Asserts (fun p => p.1.Wf cfg v ∧ Quiet cfg received vm p.1 ∧ SameViews vm p.1)
      (vm.addNewView cfg m) := by
  unfold addNewView
  refine asserts_bind fun _ => asserts_bind fun _ => ?_
  refine asserts_ite (fun _ => .ok ⟨h, Quiet.refl received vm, SameViews.refl vm⟩) fun _ => ?_
  refine .ok ⟨{ h with kept := { h.kept with newViews := fun i nv hnv => ?_ } },
    ⟨fun _ _ hvc => Or.inl hvc, rfl, fun _ => rfl⟩, ⟨rfl, rfl, rfl, rfl⟩⟩
  rcases eq_or_of_update hnv with ⟨rfl, rfl⟩ | hold
  · rfl
  · exact h.kept.newViews i nv hold

theorem Wf.stays : vm.Wf cfg v ∧ Quiet cfg received vm vm ∧ SameViews vm vm :=
  ⟨h, Quiet.refl received vm, SameViews.refl vm⟩

theorem addViewChange_asserts {m : ViewChangeMsg} (hm : received m) :
    Asserts (fun p => p.1.Wf cfg v ∧ Quiet cfg received vm p.1 ∧ SameViews vm p.1)
      (vm.addViewChange cfg m) := by
  unfold addViewChange
  refine asserts_bind fun hid => asserts_ite (fun _ => .ok (h.stays received)) fun _ => ?_
  refine asserts_ite (fun _ => .ok (h.stays received)) fun _ => .ok ?_
  have hquiet : Quiet cfg received vm { vm with
      viewChangeMessages := update vm.viewChangeMessages m.genReplicaId (some m) } := by
    refine ⟨?_, ?_, fun _ => rfl⟩
    · rintro i vc (hvc | hvc)
      · rcases eq_or_of_update hvc with ⟨rfl, rfl⟩ | hold
        · exact Or.inr ⟨hm, rfl⟩
        · exact Or.inl (Or.inl hold)
      · exact Or.inl (Or.inr hvc)
    · dsimp only [getMyLatestViewChangeMsg]
      rw [update_of_ne (Ne.symm hid)]
  exact ⟨{ h with keyed := hquiet.keyed h.keyed, kept := { h.kept with } }, hquiet,
    ⟨rfl, rfl, rfl, rfl⟩⟩

theorem addPotentiallyMissingPP_asserts {p : PrePrepareMsg} (hp : p.DigestFits cfg) :
    Asserts (fun q => q.1.Wf cfg v ∧ Quiet cfg received vm q.1 ∧ SameViews vm q.1)
      (vm.addPotentiallyMissingPP p) := by
  unfold addPotentiallyMissingPP
  refine asserts_bind fun hstat => asserts_bind fun hnull => ?_
  refine asserts_ite (fun hrange => ?_) fun _ => .ok (h.stays received)
  refine asserts_bind fun _ => ?_
  refine asserts_ite (fun hfits => ?_) fun _ => .ok (h.stays received)
  -- the new PrePrepare, or one that was kept before
  have hcases : ∀ i pp, vm.minRestrictionOfPendingView ≤ i →
      update vm.prePrepareMsgsOfRestrictions
        (p.seqNumber - vm.minRestrictionOfPendingView).toNat (some p)
        (i - vm.minRestrictionOfPendingView).toNat = some pp →
      (i = p.seqNumber ∧ pp = p) ∨ vm.prePrepareMsgOfRestriction i = some pp := by
    intro i pp hlo hpp
    rcases eq_or_of_update hpp with ⟨hidx, rfl⟩ | hold
    · exact Or.inl ⟨by lia, rfl⟩
    · exact Or.inr hold
  refine .ok ⟨{ h with forRestrictions := ?_, digests := ?_, kept := { h.kept with numbers := ?_ } },
    ⟨fun _ _ hvc => Or.inl hvc, rfl, fun _ => rfl⟩, ⟨rfl, rfl, rfl, rfl⟩⟩
  · intro idx pp hpp
    rcases eq_or_of_update hpp with ⟨-, rfl⟩ | hold
    · exact ⟨hnull, hp⟩
    · exact h.forRestrictions idx pp hold
  · intro _ hmin i pp r hlo hhi hpp hr
    rcases hcases i pp hlo hpp with ⟨rfl, rfl⟩ | hpp'
    · have hr' : vm.restrictionOfPendingView pp.seqNumber = some r := hr
      have hdigest := hfits.2
      rw [hr'] at hdigest
      simp only [Option.any_some, Bool.and_eq_true, beq_iff_eq] at hdigest
      exact hdigest.2.symm
    · exact h.digests hstat hmin i pp r hlo hhi hpp' hr
  · intro _ hmin i pp hlo hhi hpp
    rcases hcases i pp hlo hpp with ⟨rfl, rfl⟩ | hpp'
    · rfl
    · exact h.kept.numbers hstat hmin i pp hlo hhi hpp'

end

/-! ## Making a view pending -/

theorem Wf.noView (h : vm.Wf cfg v) : Wf cfg v { vm with stat := .NO_VIEW } :=
  { h with
    inView := by simp
    set := by simp
    computed := by simp
    digests := by simp
    kept := { h.kept with
      numbers := by simp
      waiting := by simp
      entered := by simp
      first := by simp } }

/-- The own message goes back to the messages that are kept. -/
def messagesAfterReset (cfg : ReplicaConfig) (vm : ViewsManager) :
    ReplicaId → Option ViewChangeMsg :=
  match vm.viewChangeMsgsOfPendingView cfg.myId with
  | some vc => Function.update vm.viewChangeMessages cfg.myId (some vc)
  | none => vm.viewChangeMessages

theorem resetDataOfLatestPending_spec (h : vm.Wf cfg v) (hstat : vm.stat = .NO_VIEW)
    (received : ViewChangeMsg → Prop) :
    (vm.resetDataOfLatestPending cfg).Wf cfg v ∧
      Quiet cfg received vm (vm.resetDataOfLatestPending cfg) ∧
      SameViews vm (vm.resetDataOfLatestPending cfg) ∧
      (∀ i, (vm.resetDataOfLatestPending cfg).viewChangeMsgsOfPendingView i = none) ∧
      (vm.resetDataOfLatestPending cfg).newViewMsgOfOfPendingView = none := by
  unfold resetDataOfLatestPending
  split_ifs with hnv
  · have hnone := Option.isNone_iff_eq_none.1 hnv
    exact ⟨h, Quiet.refl received vm, SameViews.refl vm, h.noNewView hnone, hnone⟩
  have hquiet : ∀ vm' : ViewsManager,
      vm'.viewChangeMessages = vm.messagesAfterReset cfg →
      vm'.viewChangeMsgsOfPendingView = (fun _ => none) → SameViews vm vm' →
      Quiet cfg received vm vm' := by
    intro vm' hmsgs hpend hsame
    refine ⟨?_, ?_, hsame.viewIsActive_eq⟩
    · rintro i vc (hvc | hvc)
      · rw [hmsgs] at hvc
        unfold messagesAfterReset at hvc
        cases hown : vm.viewChangeMsgsOfPendingView cfg.myId with
        | none =>
          rw [hown] at hvc
          exact Or.inl (Or.inl hvc)
        | some own =>
          rw [hown] at hvc
          rcases eq_or_of_update hvc with ⟨rfl, rfl⟩ | hold
          · exact Or.inl (Or.inr hown)
          · exact Or.inl (Or.inl hold)
      · simp [hpend] at hvc
    · unfold getMyLatestViewChangeMsg
      rw [hmsgs, hpend, messagesAfterReset]
      cases vm.viewChangeMsgsOfPendingView cfg.myId <;> simp
  have hno : ∀ {P : Prop}, vm.stat = .PENDING_WITH_RESTRICTIONS → P := fun hwaits =>
    absurd (hstat.symm.trans hwaits) (by simp)
  have hwf : Wf cfg v { vm with
      viewChangeMessages := vm.messagesAfterReset cfg
      viewChangeMsgsOfPendingView := fun _ => none
      newViewMsgOfOfPendingView := none } :=
    { h with
      set := by simp [hstat]
      computed := hno
      noNewView := by simp
      keyed := Quiet.keyed (hquiet _ rfl rfl ⟨rfl, rfl, rfl, rfl⟩) h.keyed
      listed := by simp [Listed]
      kept := { h.kept with
        newView := by simp
        waiting := hno
        entered := by simp [hstat]
        first := by simp } }
  by_cases hmin : vm.minRestrictionOfPendingView = 0
  · rw [if_pos hmin]
    exact ⟨hwf, hquiet _ rfl rfl ⟨rfl, rfl, rfl, rfl⟩, ⟨rfl, rfl, rfl, rfl⟩, fun _ => rfl, rfl⟩
  · rw [if_neg hmin]
    refine ⟨{ hwf with
      computed := hno
      forRestrictions := fun idx pp hpp => ?_
      digests := hno
      kept := { hwf.kept with numbers := hno } },
      hquiet _ rfl rfl ⟨rfl, rfl, rfl, rfl⟩, ⟨rfl, rfl, rfl, rfl⟩, fun _ => rfl, rfl⟩
    dsimp only at hpp
    split_ifs at hpp
    exact h.forRestrictions idx pp hpp

theorem moveToPending_quiet (cfg : ReplicaConfig) (received : ViewChangeMsg → Prop)
    (related : List ReplicaId) (hnone : ∀ i, vm.viewChangeMsgsOfPendingView i = none) :
    Quiet cfg received vm (vm.moveToPending related) := by
  refine ⟨?_, ?_, fun _ => rfl⟩
  · rintro i vc (hvc | hvc)
    · dsimp only [moveToPending] at hvc
      split_ifs at hvc
      exact Or.inl (Or.inl hvc)
    · dsimp only [moveToPending] at hvc
      split_ifs at hvc
      · exact Or.inl (Or.inl hvc)
      · exact Or.inl (Or.inr hvc)
  · dsimp only [getMyLatestViewChangeMsg, moveToPending]
    split_ifs
    · simp [hnone]
    · rfl

theorem createNewViewMsg_asserts (vm : ViewsManager) (cfg : ReplicaConfig) (v : ViewNum)
    (related : List ReplicaId) {nv : NewViewMsg} (hsorted : nv.Sorted) :
    Asserts (fun nv' => nv'.Sorted ∧ nv'.newView = nv.newView ∧ nv'.senderId = nv.senderId ∧
        (∀ e ∈ nv.elements, e ∈ nv'.elements) ∧ ∀ i ∈ related, ∀ vc,
          vm.viewChangeMessages i = some vc → (i, cfg.getMsgDigest vc) ∈ nv'.elements)
      (vm.createNewViewMsg cfg v related nv) := by
  induction related generalizing nv with
  | nil => exact .ok ⟨hsorted, rfl, rfl, fun _ he => he, by simp⟩
  | cons i rest ih =>
    unfold createNewViewMsg
    split
    next => exact asserts_error
    next vc hvc =>
      refine asserts_bind fun _ => asserts_bind fun _ => asserts_bind fun _ => ?_
      apply (NewViewMsg.addElement_asserts hsorted i (cfg.getMsgDigest vc)).bind
      rintro nv₁ ⟨hsorted₁, rfl⟩
      apply (ih hsorted₁).mono
      rintro nv₂ ⟨hsorted₂, hview, hsender, hkept, hlisted⟩
      refine ⟨hsorted₂, hview, hsender, ?_, ?_⟩
      · intro e he
        exact hkept e (mem_append_left _ he)
      · intro j hj vc' hvc'
        rcases mem_cons.1 hj with rfl | hj
        · obtain rfl := Option.some.inj (hvc.symm.trans hvc')
          exact hkept _ (by simp)
        · exact hlisted j hj vc' hvc'

variable (cfg v vm) in
/-- What an attempt to make `v` the pending view does; `p.2` tells whether it succeeded. -/
structure TriesPending (p : ViewsManager × Bool) : Prop where
  wf : p.1.Wf cfg v
  quiet : Quiet cfg (fun _ => False) vm p.1
  stat_eq : p.1.stat = .NO_VIEW
  activeView_eq : p.1.myLatestActiveView = vm.myLatestActiveView
  bound_eq : p.1.lowerBoundStableForPendingView = vm.lowerBoundStableForPendingView
  pending : p.2 = true → p.1.myLatestPendingView = v ∧
    ∃ i vc, i < cfg.numberOfReplicas ∧ p.1.viewChangeMsgsOfPendingView i = some vc ∧ vc.newView = v

theorem TriesPending.of_quiet {p : ViewsManager × Bool} (h : TriesPending cfg v vm₁ p)
    (hquiet : Quiet cfg (fun _ => False) vm vm₁) (hsame : SameViews vm vm₁) :
    TriesPending cfg v vm p :=
  { h with
    quiet := hquiet.trans h.quiet
    activeView_eq := h.activeView_eq.trans hsame.activeView_eq
    bound_eq := h.bound_eq.trans hsame.bound_eq }

theorem mem_replicasAskingFor {i : ReplicaId} (hi : i ∈ vm.replicasAskingFor cfg v) :
    i < cfg.numberOfReplicas ∧ ∃ vc, vm.viewChangeMessages i = some vc ∧ vc.newView = v := by
  obtain ⟨hrange, hany⟩ := mem_filter.1 hi
  obtain ⟨vc, hvc, hview⟩ := (Option.any_eq_true _ _).1 hany
  exact ⟨mem_range.1 hrange, vc, hvc, by simpa using hview⟩

section

variable (h : vm.Wf cfg v) (hstat : vm.stat = .NO_VIEW)
include h hstat

/-- The messages that the new view message lists are moved to the pending view. -/
theorem Wf.movesTo (hlt : vm.myLatestPendingView < v)
    (hnone : ∀ i, vm.viewChangeMsgsOfPendingView i = none) {related : List ReplicaId}
    {newViews : ReplicaId → Option NewViewMsg} {nv : NewViewMsg}
    (hviews : ∀ i nv', newViews i = some nv' → nv'.senderId = i) (hview : nv.newView = v)
    (hsender : nv.senderId = cfg.primaryOfView v)
    (hlisted : ∀ i ∈ related, ∀ vc, vm.viewChangeMessages i = some vc →
      i < cfg.numberOfReplicas ∧ nv.includesViewChangeFromReplica i (cfg.getMsgDigest vc) = true)
    {i : ReplicaId} (hi : i ∈ related) {vc : ViewChangeMsg}
    (hvc : vm.viewChangeMessages i = some vc) (hnew : vc.newView = v) :
    TriesPending cfg v vm ({ vm.moveToPending related with
      newViewMessages := newViews
      newViewMsgOfOfPendingView := some nv
      myLatestPendingView := v }, true) := by
  have hmove := moveToPending_quiet cfg (fun _ => False) related hnone
  refine ⟨{ h with
    pending_le := le_refl v
    set := by simp [moveToPending, hstat]
    computed := by simp [moveToPending, hstat]
    noNewView := by simp
    active_le := le_of_lt (lt_of_le_of_lt h.active_le hlt)
    keyed := hmove.keyed h.keyed
    listed := ?_
    kept := { h.kept with
      newViews := hviews
      newView := ?_
      waiting := by simp
      entered := by simp [moveToPending, hstat]
      first := by simp [moveToPending, hstat] } },
    ⟨hmove.stored, hmove.own, hmove.active⟩, hstat, rfl, rfl,
    fun _ => ⟨rfl, i, vc, (hlisted i hi vc hvc).1, (if_pos hi).trans hvc, hnew⟩⟩
  · rintro - nv' ⟨⟩ j vc' hvc'
    dsimp only [moveToPending] at hvc'
    split_ifs at hvc' with hj
    · exact hlisted j hj vc' hvc'
    · exact absurd ((hnone j).symm.trans hvc') (by simp)
  · rintro nv' ⟨⟩
    exact ⟨hview, by rw [hview, hsender]⟩

theorem tryMoveToPendingViewAsPrimary_asserts :
    Asserts (TriesPending cfg v vm) (vm.tryMoveToPendingViewAsPrimary cfg v) := by
  unfold tryMoveToPendingViewAsPrimary
  obtain ⟨hwf, hquiet, hsame, hnone, -⟩ := resetDataOfLatestPending_spec h hstat (fun _ => False)
  refine asserts_bind fun hlt => asserts_bind fun hprimary => ?_
  generalize vm.resetDataOfLatestPending cfg = vm₁ at hwf hquiet hsame hnone
  refine asserts_bind fun hown => asserts_bind fun _ => ?_
  have hstat₁ : vm₁.stat = .NO_VIEW := hsame.stat_eq.trans hstat
  have hviews : ∀ i nv, update vm₁.newViewMessages cfg.myId none i = some nv →
      nv.senderId = i := fun i nv hnv => hwf.kept.newViews i nv (of_update_none hnv)
  refine asserts_ite (fun _ => .ok ?_) fun _ => ?_
  · exact ⟨{ hwf with kept := { hwf.kept with newViews := hviews } },
      ⟨hquiet.stored, hquiet.own, hquiet.active⟩, hstat₁, hsame.activeView_eq, hsame.bound_eq,
      by simp⟩
  · refine asserts_bind fun _ => ?_
    have hempty : NewViewMsg.Sorted ⟨cfg.myId, v, []⟩ := Pairwise.nil
    refine (createNewViewMsg_asserts _ cfg v _ hempty).bind fun nv hnv => asserts_bind fun _ => .ok ?_
    obtain ⟨hsorted, hview, hsender, -, hlisted⟩ := hnv
    obtain ⟨own, hown, hnew⟩ := (Option.any_eq_true _ _).1 hown
    have hmine : cfg.myId ∈ relatedVCMsgsOfPrimary cfg
        { vm₁ with newViewMessages := update vm₁.newViewMessages cfg.myId none } v := by
      unfold relatedVCMsgsOfPrimary
      exact mem_filter.2 ⟨mem_range.2 cfg.myId_lt, by simp⟩
    refine (hwf.movesTo hstat₁ (hsame.pendingView_eq ▸ hlt) hnone hviews hview
      (hsender.trans hprimary.symm) (fun i hi vc hvc => ⟨?_, ?_⟩) hmine hown
      (by simpa using hnew)).of_quiet hquiet hsame
    · exact mem_range.1 (mem_filter.1 hi).1
    · exact NewViewMsg.includesFrom_of_mem hsorted (hlisted i hi vc hvc)

theorem tryMoveToPendingViewAsNonPrimary_asserts :
    Asserts (TriesPending cfg v vm) (vm.tryMoveToPendingViewAsNonPrimary cfg v) := by
  unfold tryMoveToPendingViewAsNonPrimary
  obtain ⟨hwf, hquiet, hsame, hnone, -⟩ := resetDataOfLatestPending_spec h hstat (fun _ => False)
  refine asserts_bind fun hlt => ?_
  dsimp only
  refine asserts_bind fun _ => ?_
  generalize vm.resetDataOfLatestPending cfg = vm₁ at hwf hquiet hsame hnone
  have hstat₁ : vm₁.stat = .NO_VIEW := hsame.stat_eq.trans hstat
  have hfails : TriesPending cfg v vm (vm₁, false) :=
    ⟨hwf, hquiet, hstat₁, hsame.activeView_eq, hsame.bound_eq, by simp⟩
  split
  next => exact .ok hfails
  next nv hnv =>
    refine asserts_ite (fun _ => .ok hfails) fun hlen => ?_
    refine asserts_bind fun _ => asserts_bind fun _ => asserts_bind fun _ => .ok ?_
    -- some message is moved, and it is for `v`
    obtain ⟨i, hi⟩ : ∃ i, i ∈ vm₁.relatedVCMsgsOfNewView cfg v nv := by
      refine exists_mem_of_length_pos ?_
      omega
    obtain ⟨-, vc, hvc, hnew⟩ := mem_replicasAskingFor (mem_filter.1 hi).1
    refine (hwf.movesTo hstat₁ (hsame.pendingView_eq ▸ hlt) hnone
      (fun j nv' hnv' => hwf.kept.newViews j nv' (of_update_none hnv'))
      (not_not.1 (not_or.1 hlen).1) (hwf.kept.newViews _ nv hnv) (fun j hj vc' hvc' => ?_) hi hvc
      hnew).of_quiet hquiet hsame
    obtain ⟨hasking, hany⟩ := mem_filter.1 hj
    rw [hvc', Option.any_some, hwf.keyed j vc' (Or.inl hvc')] at hany
    exact ⟨(mem_replicasAskingFor hasking).1, hany⟩

end

/-- What the block for a new pending view does; `p.2` tells whether the stable point has reached the
    lower bound of the set. -/
structure NewPending (cfg : ReplicaConfig) (v : ViewNum) (currentLastStable : SeqNum)
    (vm : ViewsManager) (p : ViewsManager × Bool) : Prop where
  wf : p.1.Wf cfg v
  quiet : Quiet cfg (fun _ => False) vm p.1
  stat_ne : p.1.stat ≠ .IN_VIEW
  activeView_eq : p.1.myLatestActiveView = vm.myLatestActiveView
  bound_le : vm.lowerBoundStableForPendingView ≤ p.1.lowerBoundStableForPendingView
  notRestricted : p.1.stat ≠ .PENDING_WITH_RESTRICTIONS
  ready : p.2 = true → p.1.lowerBoundStableForPendingView ≤ currentLastStable

theorem newPendingView_asserts (h : vm.Wf cfg v) (hstat : vm.stat ≠ .IN_VIEW)
    (currentLastStable : SeqNum) :
    Asserts (NewPending cfg v currentLastStable vm) (vm.newPendingView cfg v currentLastStable) := by
  unfold newPendingView
  have hquiet : Quiet cfg (fun _ => False) vm { vm with stat := .NO_VIEW } :=
    ⟨fun _ _ hvc => Or.inl hvc, rfl, viewIsActive_eq_of_ne hstat (by simp)⟩
  have htries : Asserts (TriesPending cfg v { vm with stat := .NO_VIEW })
      (if cfg.primaryOfView v = cfg.myId then
        tryMoveToPendingViewAsPrimary cfg { vm with stat := .NO_VIEW } v
      else tryMoveToPendingViewAsNonPrimary cfg { vm with stat := .NO_VIEW } v) :=
    asserts_ite (fun _ => tryMoveToPendingViewAsPrimary_asserts h.noView rfl) fun _ =>
      tryMoveToPendingViewAsNonPrimary_asserts h.noView rfl
  refine Asserts.bind htries fun p hp => ?_
  have hquiet' := hquiet.trans hp.quiet
  have hbound : p.1.lowerBoundStableForPendingView = vm.lowerBoundStableForPendingView := hp.bound_eq
  refine asserts_ite (fun _ => .ok ?_) fun hmoved => ?_
  · exact ⟨hp.wf, hquiet', by simp [hp.stat_eq], hp.activeView_eq, le_of_eq hbound.symm,
      by simp [hp.stat_eq], by simp⟩
  · obtain ⟨hview, i, vc, hlt, hvc, hnew⟩ := hp.pending (by simpa using hmoved)
    refine Meets.bind_eq (calcLBStableForView_asserts _ _) fun t1 ht1 _ => .ok ?_
    have hset : ∀ j vc', j < cfg.numberOfReplicas →
        p.1.viewChangeMsgsOfPendingView j = some vc' → vc'.newView = v := by
      intro j vc' hj hvc'
      rw [← hnew]
      exact (calcLBStableForView_ok ht1).1 vc'
        (mem_messages.2 ⟨j, hj, hvc'⟩) vc
        (mem_messages.2 ⟨i, hlt, hvc⟩)
    have hge : p.1.lowerBoundStableForPendingView ≤
        max t1 (max currentLastStable p.1.lowerBoundStableForPendingView) := by
      lia
    exact ⟨{ hp.wf with
      inView := by simp
      set := fun _ _ => ⟨hset, t1, ht1, le_max_left _ _⟩
      computed := by simp
      digests := by simp
      kept := { hp.wf.kept with
        bound_nonneg := le_trans hp.wf.kept.bound_nonneg hge
        numbers := by simp
        waiting := by simp
        entered := by simp
        first := by simp } },
      ⟨hquiet'.stored, hquiet'.own, viewIsActive_eq_of_ne hstat (by simp)⟩, by simp,
      hp.activeView_eq, le_trans (le_of_eq hbound.symm) hge, by simp, of_decide_eq_true⟩

/-! ## Entering a view -/

theorem mem_seqNums {first last i : SeqNum} : i ∈ seqNums first last ↔ first ≤ i ∧ i ≤ last := by
  simp only [seqNums, mem_map, mem_range]
  constructor
  · rintro ⟨k, hk, rfl⟩
    constructor <;> lia
  · rintro ⟨hlo, hhi⟩
    exact ⟨(i - first).toNat, by lia, by lia⟩

theorem length_seqNums (first last : SeqNum) :
    (seqNums first last).length = (last - first + 1).toNat := by
  simp [seqNums]

/-- A stored PrePrepare that fits the restriction for `i`. -/
theorem prePrepareForRestriction_some {i : SeqNum} {pp : PrePrepareMsg}
    (h : vm.prePrepareForRestriction i = some pp) :
    (i, pp) ∈ vm.collectionOfPrePrepareMsgs ∧
      ∃ r, vm.restrictionOfPendingView i = some r ∧ pp.digestOfRequests = r.digest := by
  unfold prePrepareForRestriction at h
  split at h
  next => simp at h
  next r hr =>
    by_cases hnull : r.isNull = true
    · rw [if_pos hnull] at h
      simp at h
    · rw [if_neg hnull] at h
      obtain ⟨hlookup, hdigest⟩ := Option.filter_eq_some_iff.1 h
      obtain ⟨pre, post, hmem, -⟩ := lookup_eq_some_iff.1 hlookup
      exact ⟨by simp [hmem], r, hr, by simpa using hdigest⟩

theorem computeRestrictionsOfNewView_asserts (h : vm.Wf cfg v) :
    Asserts (fun vm' => vm'.Wf cfg v ∧ Quiet cfg (fun _ => False) vm vm' ∧
      vm'.myLatestActiveView = vm.myLatestActiveView ∧
      vm'.myLatestPendingView = vm.myLatestPendingView ∧
      vm'.lowerBoundStableForPendingView = vm.lowerBoundStableForPendingView)
      (vm.computeRestrictionsOfNewView cfg v) := by
  unfold computeRestrictionsOfNewView
  refine asserts_bind fun hstat => asserts_bind fun hview => asserts_bind fun hnewView => ?_
  refine Meets.bind_eq (computeRestrictions_asserts _ _ _ _)
    fun out hout hlen => ?_
  obtain ⟨nv, hnv, -⟩ := (Option.any_eq_true _ _).1 hnewView
  have hne : vm.stat ≠ .IN_VIEW := by simp [hstat]
  have hlength : (out.restrictions.length : Int) = kWorkWindowSize := by
    rw [hlen.1.1]
    exact h.restrictions_length
  have hquiet : ∀ vm' : ViewsManager, vm'.Stored = vm.Stored → vm'.stat ≠ .IN_VIEW →
      vm'.getMyLatestViewChangeMsg cfg = vm.getMyLatestViewChangeMsg cfg →
      Quiet cfg (fun _ => False) vm vm' := by
    intro vm' hstored hstat' hown
    exact ⟨fun i vc hvc => Or.inl (hstored ▸ hvc), hown, viewIsActive_eq_of_ne hne hstat'⟩
  refine asserts_ite (fun hmin => .ok ⟨{ h with
    inView := by simp
    restrictions_length := hlength
    set := fun _ => h.set (Or.inl hstat)
    computed := fun _ _ => ⟨_, h.restrictions_length, hout⟩
    digests := fun _ hno => absurd hmin hno
    kept := { h.kept with
      numbers := fun _ hno => absurd hmin hno
      waiting := by simp [hnv]
      entered := by simp
      first := by simp } }, hquiet _ rfl (by simp) rfl, rfl, rfl, rfl⟩) fun hmin => ?_
  refine asserts_bind fun _ => asserts_bind fun _ => .ok ⟨{ h with
    inView := by simp
    restrictions_length := hlength
    set := fun _ => h.set (Or.inl hstat)
    computed := fun _ _ => ⟨_, h.restrictions_length, hout⟩
    forRestrictions := ?_
    digests := ?_
    kept := { h.kept with
      numbers := ?_
      waiting := by simp [hnv]
      entered := by simp
      first := by simp } }, hquiet _ rfl (by simp) rfl, rfl, rfl, rfl⟩
  · intro idx pp hpp
    dsimp only at hpp
    split_ifs at hpp
    · exact h.collection _ (prePrepareForRestriction_some hpp).1
    · exact h.forRestrictions idx pp hpp
  · intro _ _ i pp r hlo hhi hpp hr
    dsimp only [prePrepareMsgOfRestriction] at hpp hlo hhi
    rw [length_seqNums, if_pos (by lia)] at hpp
    obtain ⟨-, r', hr', hdigest⟩ := prePrepareForRestriction_some hpp
    have hi : out.minRestrictedSeqNum + ((i - out.minRestrictedSeqNum).toNat : Int) = i := by lia
    rw [hi] at hr'
    rw [hdigest, Option.some.inj (hr'.symm.trans hr)]
  · intro _ _ i pp hlo hhi hpp
    dsimp only [prePrepareMsgOfRestriction] at hpp hlo hhi
    rw [length_seqNums, if_pos (by lia)] at hpp
    have hkey := h.kept.keys _ (prePrepareForRestriction_some hpp).1
    lia

/-- The PrePrepare of the new view for one number. -/
theorem prePrepareOfView_asserts {i : SeqNum} (hview : vm.myLatestActiveView = v)
    (hfor : ∀ idx pp, vm.prePrepareMsgsOfRestrictions idx = some pp →
      pp.isNull = false ∧ pp.DigestFits cfg)
    (hdigest : ∀ pp r, vm.prePrepareMsgOfRestriction i = some pp →
      vm.restrictionOfPendingView i = some r → pp.digestOfRequests = r.digest) :
    Asserts (OfRestriction cfg v vm i) (vm.prePrepareOfView cfg i) := by
  subst hview
  unfold prePrepareOfView
  refine asserts_ite (fun hres => ?_) fun hres => ?_
  · split
    next => exact asserts_error
    next pp hpp =>
      refine asserts_bind fun hseq => .ok ?_
      obtain ⟨hnull, hfits⟩ := hfor _ pp hpp
      exact ⟨hseq, rfl, rfl, hfits, by rw [hres]; exact hnull, fun r hr _ => hdigest pp r hpp hr⟩
  · refine asserts_bind fun _ => .ok ?_
    rw [Bool.not_eq_true] at hres
    refine ⟨rfl, rfl, rfl, rfl, by rw [hres]; rfl, fun r hr hnull => ?_⟩
    exact absurd hres (by simp [isRestricted, hr, hnull])

theorem forall₂_ofRestriction {numbers : List SeqNum} {pps : List PrePrepareMsg}
    (h : List.Forall₂ (OfRestriction cfg v vm) numbers pps) :
    pps.map (·.seqNumber) = numbers ∧ ∀ pp ∈ pps, OfRestriction cfg v vm pp.seqNumber pp := by
  induction h with
  | nil => simp
  | cons hpp _ ih =>
    obtain ⟨hmap, hall⟩ := ih
    refine ⟨by rw [map_cons, hpp.seqNumber_eq, hmap], fun pp' hpp' => ?_⟩
    rcases mem_cons.1 hpp' with rfl | hmem
    · rw [hpp.seqNumber_eq]
      exact hpp
    · exact hall pp' hmem

theorem enterView_asserts (h : vm.Wf cfg v) (hstat : vm.stat = .PENDING_WITH_RESTRICTIONS)
    (hview : vm.myLatestPendingView = v) (hlt : vm.myLatestActiveView < v)
    (hlb : vm.lowerBoundStableForPendingView ≤ currentLastStable) :
    Asserts (fun p => Enters cfg v currentLastStable vm p.1 p.2)
      (vm.enterView cfg v currentLastStable) := by
  have hpos : 0 < v := lt_of_le_of_lt h.kept.active_nonneg hlt
  have hwf : Wf cfg v { vm with
      myLatestActiveView := v
      stat := .IN_VIEW
      collectionOfPrePrepareMsgs := [] } :=
    { h with
      inView := fun _ => rfl
      set := by simp
      computed := by simp
      collection := by simp
      digests := by simp
      active_le := le_of_eq hview.symm
      kept := { h.kept with
        keys := by simp
        numbers := by simp
        waiting := by simp
        entered := fun _ _ => ⟨hview, h.kept.waiting hstat⟩
        active_nonneg := le_of_lt hpos
        first := fun _ hno => absurd hno (ne_of_gt hpos) } }
  have hset := h.set (Or.inr hstat) hview
  have hcomputed := h.computed hstat hview
  have hbefore : vm.stat ≠ .IN_VIEW ∧ vm.myLatestActiveView < v := ⟨by simp [hstat], hlt⟩
  unfold enterView
  refine asserts_ite (fun hmin => .ok ?_) fun hmin => ?_
  · exact ⟨fun _ _ hvc => hvc, rfl, hbefore, le_refl _, ⟨rfl, rfl, hview⟩, hwf, hlb, hset,
      hcomputed, (if_pos hmin).symm, by simp⟩
  · refine asserts_bind fun _ => ?_
    refine Asserts.bind (meets_mapM (OfRestriction cfg v vm) fun i hi => ?_) fun pps hpps => .ok ?_
    · obtain ⟨hlo, hhi⟩ := mem_seqNums.1 hi
      have hof : Asserts (OfRestriction cfg v { vm with myLatestActiveView := v, stat := .IN_VIEW } i)
          (prePrepareOfView cfg { vm with myLatestActiveView := v, stat := .IN_VIEW } i) :=
        prePrepareOfView_asserts rfl h.forRestrictions
          fun pp r hpp hr => h.digests hstat hmin i pp r (by lia) hhi hpp hr
      exact hof.mono fun pp hpp => { hpp with }
    · obtain ⟨hmap, hall⟩ := forall₂_ofRestriction hpps
      refine ⟨fun _ _ hvc => hvc, rfl, hbefore, le_refl _, ⟨rfl, rfl, hview⟩, { hwf with
        forRestrictions := fun idx pp hpp => ?_
        digests := by simp
        kept := { hwf.kept with numbers := by simp } },
        hlb, hset, hcomputed, hmap.trans (if_neg hmin).symm, fun pp hpp => { hall pp hpp with }⟩
      dsimp only at hpp
      split_ifs at hpp
      exact h.forRestrictions idx pp hpp

theorem Enters.of_quiet {pps : List PrePrepareMsg} (h : Enters cfg v currentLastStable vm₁ vm' pps)
    (hquiet : Quiet cfg (fun _ => False) vm vm₁)
    (hbound : vm.lowerBoundStableForPendingView ≤ vm₁.lowerBoundStableForPendingView)
    (hbefore : vm.stat ≠ .IN_VIEW ∧ vm.myLatestActiveView < v) :
    Enters cfg v currentLastStable vm vm' pps :=
  { h with
    stored := fun i vc hvc => hquiet.old (h.stored i vc hvc)
    own := h.own.trans hquiet.own
    before := hbefore
    grows := le_trans hbound h.grows }

/-- An attempt to enter view `v`: it succeeds, or the manager stays outside of views. -/
def TriesToEnter (cfg : ReplicaConfig) (v : ViewNum) (currentLastStable : SeqNum)
    (vm : ViewsManager) (p : ViewsManager × Option (List PrePrepareMsg)) : Prop :=
  match p.2 with
  | none => p.1.Wf cfg v ∧ Quiet cfg (fun _ => False) vm p.1 ∧
      vm.lowerBoundStableForPendingView ≤ p.1.lowerBoundStableForPendingView ∧
      (vm.Within currentLastStable → p.1.Within currentLastStable)
  | some pps => Enters cfg v currentLastStable vm p.1 pps

theorem TriesToEnter.of_quiet (h : TriesToEnter cfg v currentLastStable vm₁ p)
    (hquiet : Quiet cfg (fun _ => False) vm vm₁)
    (hbound : vm.lowerBoundStableForPendingView ≤ vm₁.lowerBoundStableForPendingView)
    (hwithin : vm.Within currentLastStable → vm₁.Within currentLastStable)
    (hbefore : vm.stat ≠ .IN_VIEW ∧ vm.myLatestActiveView < v) :
    TriesToEnter cfg v currentLastStable vm p := by
  obtain ⟨vm', o⟩ := p
  cases o with
  | none =>
    obtain ⟨hwf, hquiet', hbound', hwithin'⟩ := h
    exact ⟨hwf, hquiet.trans hquiet', le_trans hbound hbound', fun hw => hwithin' (hwithin hw)⟩
  | some pps => exact Enters.of_quiet h hquiet hbound hbefore

/-- **An attempt to enter a view** keeps the invariant. -/
theorem TriesToEnter.wf (h : TriesToEnter cfg v currentLastStable vm p) : p.1.Wf cfg v ∧
      vm.lowerBoundStableForPendingView ≤ p.1.lowerBoundStableForPendingView := by
  obtain ⟨vm', o⟩ := p
  cases o with
  | none => exact ⟨h.1, h.2.2.1⟩
  | some pps => exact ⟨Enters.wf h, Enters.grows h⟩

theorem enterPendingView_asserts (h : vm.Wf cfg v) (hstat : vm.stat ≠ .IN_VIEW)
    (hlt : vm.myLatestActiveView < v) {currentLastStable : SeqNum}
    (hlb : vm.lowerBoundStableForPendingView ≤ currentLastStable) :
    Asserts (TriesToEnter cfg v currentLastStable vm)
      (vm.enterPendingView cfg v currentLastStable) := by
  unfold enterPendingView
  refine asserts_bind fun hview => ?_
  have hrestricted : Asserts (fun vm₁ => vm₁.Wf cfg v ∧ Quiet cfg (fun _ => False) vm vm₁ ∧
      vm₁.myLatestActiveView = vm.myLatestActiveView ∧
      vm₁.myLatestPendingView = vm.myLatestPendingView ∧
      vm₁.lowerBoundStableForPendingView = vm.lowerBoundStableForPendingView)
      (if vm.stat = .PENDING then vm.computeRestrictionsOfNewView cfg v else pure vm) :=
    asserts_ite (fun _ => computeRestrictionsOfNewView_asserts h) fun _ =>
      .ok ⟨h, Quiet.refl _ vm, rfl, rfl, rfl⟩
  refine hrestricted.bind fun vm₁ hvm₁ => ?_
  obtain ⟨hwf, hquiet, hactive, hpending, hbound⟩ := hvm₁
  have hbound' := le_of_eq hbound.symm
  rw [← hbound] at hlb
  refine asserts_ite (fun _ => .ok ⟨hwf, hquiet, hbound', fun _ _ => hlb⟩) fun hgo => ?_
  obtain ⟨hstat₁, -⟩ := not_or.1 hgo
  refine (enterView_asserts hwf (not_not.1 hstat₁) (hpending.trans hview.symm) (hactive ▸ hlt)
    hlb).bind fun p hp => .ok ?_
  exact Enters.of_quiet hp hquiet hbound' ⟨hstat, hlt⟩

theorem getMyNewViewMsgForCurrentView_asserts :
    Asserts (fun nv => vm.newViewMsgOfOfPendingView = some nv)
      (vm.getMyNewViewMsgForCurrentView cfg) := by
  unfold getMyNewViewMsgForCurrentView
  refine asserts_bind fun _ => asserts_bind fun _ => ?_
  split
  next => exact asserts_error
  next nv hnv => exact asserts_bind fun _ => asserts_bind fun _ => .ok hnv

/-- **An attempt to enter a view** either enters it with the PrePrepares that the restrictions of its
    messages demand, or changes nothing that other parts of the replica rely on. -/
theorem tryToEnterView_asserts (h : vm.Wf cfg v) (currentLastStable currentLastExecuted : SeqNum) :
    Asserts (TriesToEnter cfg v currentLastStable vm)
      (vm.tryToEnterView cfg v currentLastStable currentLastExecuted) := by
  unfold tryToEnterView
  refine asserts_bind fun hstat => asserts_bind fun hlt => asserts_bind fun _ => asserts_bind fun _ =>
    asserts_bind fun _ => ?_
  have hwf : Wf cfg v { vm with
      debugHighestViewNumberPassedByClient := v, debugHighestKnownStable := currentLastStable } :=
    { h with kept := { h.kept with } }
  have hquiet : Quiet cfg (fun _ => False) vm { vm with
      debugHighestViewNumberPassedByClient := v, debugHighestKnownStable := currentLastStable } :=
    ⟨fun _ _ hvc => Or.inl hvc, rfl, fun _ => rfl⟩
  refine asserts_ite (fun _ => .ok ⟨hwf, hquiet, le_refl _, fun hwithin => hwithin⟩)
    fun hstate => asserts_ite (fun _ => ?_) fun _ => ?_
  · refine (newPendingView_asserts hwf hstat currentLastStable).bind fun p hp => ?_
    have hwithin : p.1.Within currentLastStable := fun hno => absurd hno hp.notRestricted
    refine asserts_ite (fun _ => .ok ⟨hp.wf, hquiet.trans hp.quiet, hp.bound_le, fun _ => hwithin⟩)
      fun hready => ?_
    refine (enterPendingView_asserts hp.wf hp.stat_ne (by rw [hp.activeView_eq]; exact hlt)
      (hp.ready (by simpa using hready))).mono fun q hq => ?_
    exact hq.of_quiet (hquiet.trans hp.quiet) hp.bound_le (fun _ => hwithin) ⟨hstat, hlt⟩
  · have hlb : vm.lowerBoundStableForPendingView ≤ currentLastStable := by
      obtain ⟨-, hlb⟩ := not_or.1 hstate
      exact not_lt.1 hlb
    exact (enterPendingView_asserts hwf hstat hlt hlb).mono fun q hq =>
      hq.of_quiet hquiet (le_refl _) (fun hwithin => hwithin) ⟨hstat, hlt⟩

end ViewsManager

end ConcordBft
