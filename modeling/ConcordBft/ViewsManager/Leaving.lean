import ConcordBft.ViewChangeSafetyLogic.Restrictions
import ConcordBft.ViewsManager.Spec

set_option autoImplicit false

/-! # What a replica reports when it leaves its view

`exitFromCurrentView` turns the PrePrepares and prepared certificates of the window into the view
change message of the replica. `reportOf` says which element one number gets: the certificate of the
view that is left, or else a certificate that the previous message had for the same digest, or else
the PrePrepare alone; a null PrePrepare without a certificate is not reported. -/

namespace ConcordBft.ViewsManager

open Checked List

variable {cfg : ReplicaConfig} {v a : ViewNum} {vm : ViewsManager} {s : SeqNum} {d : Digest}
  {infos : List PrevViewInfo} {prev : ElementsIterator}

/-- The certificate of an earlier message for the same number and digest. -/
def certificateInPrev (prev : ElementsIterator) (s : SeqNum) (d : Digest) :
    Option PreparedCertificate :=
  (elementAt s prev).bind fun e => if e.prePrepreDigest = d then e.preparedCertificate else none

/-- The element for one number of a replica that leaves view `a` with the previous message
    `prev`. -/
def reportOf (a : ViewNum) (prev : ElementsIterator) (it : PrevViewInfo) : Option Element :=
  let pp := it.prePrepare
  let element := fun cert => (⟨pp.seqNumber, pp.digestOfRequests, a, cert⟩ : Element)
  match it.prepareFull, certificateInPrev prev pp.seqNumber pp.digestOfRequests with
  | some pf, _ => some (element (some ⟨a, pf.signatureBody⟩))
  | none, some cert => some (element (some cert))
  | none, none => if pp.isNull then none else some (element none)

theorem of_reportOf {it : PrevViewInfo} {e : Element} (h : reportOf a prev it = some e) :
    e.seqNum = it.prePrepare.seqNumber ∧ e.originView = a ∧
      ∀ c, e.preparedCertificate = some c →
        (∃ pf, it.prepareFull = some pf ∧ c = ⟨a, pf.signatureBody⟩) ∨
          certificateInPrev prev it.prePrepare.seqNumber it.prePrepare.digestOfRequests = some c := by
  unfold reportOf at h
  dsimp only at h
  cases hpf : it.prepareFull with
  | some pf =>
    rw [hpf] at h
    obtain rfl := Option.some.inj h
    refine ⟨rfl, rfl, ?_⟩
    intro c hc
    exact Or.inl ⟨pf, rfl, (Option.some.inj hc).symm⟩
  | none =>
    rw [hpf] at h
    cases hcert : certificateInPrev prev it.prePrepare.seqNumber it.prePrepare.digestOfRequests with
    | some cert =>
      rw [hcert] at h
      obtain rfl := Option.some.inj h
      simp
    | none =>
      rw [hcert] at h
      split_ifs at h
      obtain rfl := Option.some.inj h
      simp

/-- The elements of a message that reports the given numbers are sorted. -/
theorem sorted_reports
    (h : infos.Pairwise fun it it' => it.prePrepare.seqNumber < it'.prePrepare.seqNumber) :
    SortedElements (infos.filterMap (reportOf a prev)) := by
  refine Pairwise.filterMap _ (fun it it' hlt e he e' he' => ?_) h
  rw [(of_reportOf he).1, (of_reportOf he').1]
  exact hlt

/-! ## The previous message -/

theorem certificateInPrev_congr {it it' : ElementsIterator}
    (h : elementAt s it = elementAt s it') :
    certificateInPrev it s d = certificateInPrev it' s d := by
  unfold certificateInPrev
  rw [h]

theorem sorted_goToAtLeast {it : ElementsIterator} (h : SortedElements it) (s : SeqNum) :
    SortedElements (it.goToAtLeast s) :=
  Pairwise.sublist (dropWhile_sublist _) h

/-- What the loop finds at its iterator is the certificate of the previous message. -/
theorem preparedCertInPrev_asserts {it : ElementsIterator} (hsorted : SortedElements it) :
    Asserts (fun c => c = certificateInPrev it s d ∧ ∀ cert, c = some cert → cert.certificateView ≤ a)
      (preparedCertInPrev a s d (it.goToAtLeast s)) := by
  rw [certificateInPrev_congr (elementAt_goToAtLeast (le_refl s) it).symm]
  have hle : ∀ e ∈ it.goToAtLeast s, s ≤ e.seqNum := fun e he =>
    ViewChangeSafetyLogic.le_of_mem_goToAtLeast hsorted he
  have hsorted' := sorted_goToAtLeast hsorted s
  unfold preparedCertInPrev
  cases hit : it.goToAtLeast s with
  | nil => exact .ok ⟨rfl, nofun⟩
  | cons e rest =>
    rw [hit] at hle hsorted'
    by_cases hs : e.seqNum = s
    · have hcert : certificateInPrev (e :: rest) s d =
          if e.prePrepreDigest = d then e.preparedCertificate else none := by
        simp [certificateInPrev, elementAt, hs]
      rw [hcert]
      simp only [ElementsIterator.getCurrent, head?_cons]
      cases hc : e.preparedCertificate with
      | none => exact .ok ⟨by simp, nofun⟩
      | some cert =>
        refine asserts_ite (fun hd => ?_) fun hd => .ok ⟨?_, nofun⟩
        · refine asserts_bind fun h1 => asserts_bind fun h2 => .ok ⟨by rw [if_pos hd.2], ?_⟩
          intro cert' hcert'
          obtain rfl := Option.some.inj hcert'
          lia
        · rw [if_neg fun h => hd ⟨hs, h⟩]
    · -- the element of `s` would be the current one
      have hcert : certificateInPrev (e :: rest) s d = none := by
        have hlt : s < e.seqNum := by
          have := hle e mem_cons_self
          lia
        have hnone : elementAt s (e :: rest) = none :=
          elementAt_eq_none_of_lt fun e' he' => lt_of_lt_of_le hlt (hsorted'.head_le e' he')
        simp [certificateInPrev, hnone]
      rw [hcert]
      simp only [ElementsIterator.getCurrent, head?_cons]
      cases hc : e.preparedCertificate with
      | none => exact .ok ⟨rfl, nofun⟩
      | some cert =>
        dsimp only
        rw [if_neg fun h => hs h.1]
        exact .ok ⟨rfl, nofun⟩

/-! ## What is kept for the next views -/

theorem addElement_keeps {vc vc' : ViewChangeMsg} {e : Element} (h : vc.addElement e = .ok vc') :
    vc'.genReplicaId = vc.genReplicaId := by
  iterate 3 obtain ⟨-, h⟩ := require_bind_eq_ok h
  cases h
  rfl

theorem addToViewChange_keeps {lastExecuted : SeqNum} {it : PrevViewInfo}
    {cert : Option PreparedCertificate} {vc vc' : ViewChangeMsg}
    (h : vm.addToViewChange lastExecuted it cert vc = .ok vc') :
    vc'.genReplicaId = vc.genReplicaId := by
  unfold addToViewChange at h
  split at h
  next =>
    obtain ⟨-, h⟩ := require_bind_eq_ok h
    obtain ⟨-, h⟩ := require_bind_eq_ok h
    exact addElement_keeps h
  next => exact addElement_keeps h
  next =>
    split_ifs at h
    · exact addElement_keeps h
    · obtain ⟨-, h⟩ := require_bind_eq_ok h
      cases h
      rfl

/-- The loop keeps the PrePrepares that are not null, and the id of its message. -/
theorem exitLoop_keeps {lastExecuted last : SeqNum} {iter : ElementsIterator} {vc : ViewChangeMsg}
    {collection : List (SeqNum × PrePrepareMsg)}
    {out : SeqNum × ViewChangeMsg × List (SeqNum × PrePrepareMsg)}
    (h : vm.exitLoop lastExecuted infos iter last vc collection = .ok out) :
    out.2.1.genReplicaId = vc.genReplicaId ∧ ∀ e ∈ out.2.2, e ∈ collection ∨
      ∃ it ∈ infos, e = (it.prePrepare.seqNumber, it.prePrepare) ∧ it.prePrepare.isNull = false := by
  induction infos generalizing iter last vc collection with
  | nil =>
    cases h
    simp
  | cons it rest ih =>
    iterate 4 obtain ⟨-, h⟩ := require_bind_eq_ok h
    obtain ⟨cert, -, h⟩ := bind_eq_ok h
    obtain ⟨vc', hvc', h⟩ := bind_eq_ok h
    obtain ⟨hid, hcollection⟩ := ih h
    refine ⟨hid.trans (addToViewChange_keeps hvc'), fun e he => ?_⟩
    rcases hcollection e he with hmem | ⟨it', hit', heq⟩
    · split_ifs at hmem with hkeep
      · rcases mem_append.1 hmem with hold | hnew
        · exact Or.inl hold
        · simp only [Bool.and_eq_true, Bool.not_eq_true'] at hkeep
          exact Or.inr ⟨it, mem_cons_self, mem_singleton.1 hnew, hkeep.2⟩
      · exact Or.inl hmem
    · exact Or.inr ⟨it', mem_cons_of_mem it hit', heq⟩

/-- The manager after it has left its view with what the loop returned. -/
theorem Wf.leaves (h : vm.Wf cfg v) {infos : List PrevViewInfo}
    (hfits : ∀ it ∈ infos, it.prePrepare.DigestFits cfg) {lastExecuted last lastStable : SeqNum}
    {iter : ElementsIterator} {vc : ViewChangeMsg} (hid : vc.genReplicaId = cfg.myId)
    {out : SeqNum × ViewChangeMsg × List (SeqNum × PrePrepareMsg)}
    (hloop : vm.exitLoop lastExecuted infos iter last vc [] = .ok out) {vm₁ vm' : ViewsManager}
    (hvm₁ : vm₁ = resetDataOfLatestPending cfg { vm with
      stat := .NO_VIEW
      debugHighestKnownStable := lastStable
      collectionOfPrePrepareMsgs := out.2.2 })
    (hvm' : vm' = { vm₁ with
      viewChangeMessages := Function.update vm₁.viewChangeMessages cfg.myId (some out.2.1) }) :
    vm'.Wf cfg v ∧
      (∀ i vc, vm'.Stored i vc → vm.Stored i vc ∨ (i = cfg.myId ∧ vc = out.2.1)) ∧
      (∀ i, vm'.viewChangeMsgsOfPendingView i = none) ∧
      SameViews { vm with stat := .NO_VIEW } vm' := by
  obtain ⟨hid', hcollection⟩ := exitLoop_keeps hloop
  have hkept : ∀ e ∈ out.2.2, (e.2.isNull = false ∧ e.2.DigestFits cfg) ∧ e.2.seqNumber = e.1 := by
    intro e he
    rcases hcollection e he with hno | ⟨it, hit, rfl, hnull⟩
    · simp at hno
    · exact ⟨⟨hnull, hfits it hit⟩, rfl⟩
  have hwf : Wf cfg v { vm with
      stat := .NO_VIEW
      debugHighestKnownStable := lastStable
      collectionOfPrePrepareMsgs := out.2.2 } :=
    { h.noView with
      collection := fun e he => (hkept e he).1
      kept := { h.noView.kept with keys := fun e he => (hkept e he).2 } }
  obtain ⟨hreset, hquiet, hsame, hnone, -⟩ := resetDataOfLatestPending_spec hwf rfl (fun _ => False)
  rw [← hvm₁] at hreset hquiet hsame hnone
  have hstored : ∀ i vc, vm'.Stored i vc → vm.Stored i vc ∨ (i = cfg.myId ∧ vc = out.2.1) := by
    subst hvm'
    rintro i vc (hvc | hvc)
    · rcases eq_or_of_update hvc with hnew | hold
      · exact Or.inr hnew
      · exact Or.inl (hquiet.old (Or.inl hold))
    · exact absurd ((hnone i).symm.trans hvc) (by simp)
  have hkeyed : vm'.Keyed := by
    intro i vc hvc
    rcases hstored i vc hvc with hold | ⟨rfl, rfl⟩
    · exact h.keyed i vc hold
    · exact hid'.trans hid
  subst hvm'
  exact ⟨{ hreset with keyed := hkeyed, kept := { hreset.kept with } }, hstored, hnone,
    ⟨hsame.stat_eq, hsame.activeView_eq, hsame.pendingView_eq, hsame.bound_eq⟩⟩

/-- Leaving a view keeps the invariant, whatever is in the window. -/
theorem exitFromCurrentView_wf (h : vm.Wf cfg v)
    (hfits : ∀ it ∈ infos, it.prePrepare.DigestFits cfg)
    {currentLastStable currentLastExecuted : SeqNum} {p : ViewsManager × ViewChangeMsg}
    (hp : vm.exitFromCurrentView cfg currentLastStable currentLastExecuted infos = .ok p) :
    p.1.Wf cfg v ∧ SameViews { vm with stat := .NO_VIEW } p.1 := by
  iterate 6 obtain ⟨-, hp⟩ := require_bind_eq_ok hp
  obtain ⟨out, hloop, hp⟩ := bind_eq_ok hp
  obtain ⟨-, hp⟩ := require_bind_eq_ok hp
  cases hp
  obtain ⟨hwf, -, -, hsame⟩ := h.leaves hfits rfl hloop rfl rfl
  exact ⟨hwf, hsame⟩

/-! ## The loop -/

/-- An element that a replica reports when it leaves view `a`. -/
structure Reportable (a : ViewNum) (lastStable : SeqNum) (e : Element) : Prop where
  above_stable : lastStable < e.seqNum
  in_window : e.seqNum ≤ lastStable + kWorkWindowSize
  originView_eq : e.originView = a
  cert_le : ∀ c, e.preparedCertificate = some c → c.certificateView ≤ a

theorem addElement_asserts (vc : ViewChangeMsg) (e : Element) (horigin : e.originView = a)
    (hcert : ∀ c, e.preparedCertificate = some c → c.certificateView ≤ a) :
    Asserts (fun vc' => vc' = { vc with elements := vc.elements ++ [e] } ∧
      ∀ e' ∈ some e, Reportable a vc.lastStable e') (vc.addElement e) := by
  unfold ViewChangeMsg.addElement
  refine asserts_bind fun _ => asserts_bind fun h1 => asserts_bind fun h2 => .ok ⟨rfl, ?_⟩
  rintro _ ⟨⟩
  exact ⟨h1, h2, horigin, hcert⟩

theorem addToViewChange_asserts {prev : ElementsIterator} {it : PrevViewInfo}
    {prevCert : Option PreparedCertificate} (hall : it.hasAllRequests = true)
    (hview : vm.myLatestActiveView = a)
    (hcert : it.prepareFull = none →
      prevCert = certificateInPrev prev it.prePrepare.seqNumber it.prePrepare.digestOfRequests ∧
      ∀ cert, prevCert = some cert → cert.certificateView ≤ a)
    (vc : ViewChangeMsg) (lastExecuted : SeqNum) :
    Asserts (fun vc' => vc' = { vc with elements := vc.elements ++ (reportOf a prev it).toList } ∧
      ∀ e ∈ reportOf a prev it, Reportable a vc.lastStable e)
      (vm.addToViewChange lastExecuted it prevCert vc) := by
  subst hview
  unfold addToViewChange reportOf
  dsimp only
  cases hpf : it.prepareFull with
  | some pf =>
    refine asserts_bind fun _ => asserts_bind fun _ => ?_
    refine addElement_asserts vc _ rfl fun c hc => ?_
    obtain rfl := Option.some.inj hc
    exact le_refl _
  | none =>
    obtain ⟨hprev, hle⟩ := hcert hpf
    rw [← hprev]
    cases hc : prevCert with
    | some cert =>
      refine addElement_asserts vc _ rfl fun c hc' => ?_
      obtain rfl := Option.some.inj hc'
      exact hle cert hc
    | none =>
      rw [hall]
      cases hnull : it.prePrepare.isNull with
      | true => exact asserts_bind fun _ => .ok ⟨by simp, by simp⟩
      | false => exact addElement_asserts vc _ rfl (by simp)

/-- What the loop returns for the numbers `infos`. -/
structure ExitLoopResult (a : ViewNum) (prev : ElementsIterator) (infos : List PrevViewInfo)
    (last : SeqNum) (vc : ViewChangeMsg) (out : SeqNum × ViewChangeMsg × List (SeqNum × PrePrepareMsg)) :
    Prop where
  msg_eq : out.2.1 = { vc with elements := vc.elements ++ infos.filterMap (reportOf a prev) }
  reportable : ∀ e ∈ infos.filterMap (reportOf a prev), Reportable a vc.lastStable e
  above : ∀ it ∈ infos, last < it.prePrepare.seqNumber
  sorted : infos.Pairwise fun it it' => it.prePrepare.seqNumber < it'.prePrepare.seqNumber

theorem exitLoop_asserts {prev iter : ElementsIterator}
    (hall : ∀ it ∈ infos, it.hasAllRequests = true) (hview : vm.myLatestActiveView = a)
    (hsorted : SortedElements iter) {last : SeqNum}
    (hiter : ∀ s, last < s → elementAt s iter = elementAt s prev) (vc : ViewChangeMsg)
    (collection : List (SeqNum × PrePrepareMsg)) (lastExecuted : SeqNum) :
    Asserts (ExitLoopResult a prev infos last vc)
      (vm.exitLoop lastExecuted infos iter last vc collection) := by
  induction infos generalizing iter last vc collection with
  | nil =>
    exact .ok ⟨by simp, by simp, by simp, Pairwise.nil⟩
  | cons it rest ih =>
    have hit : it.hasAllRequests = true := hall it mem_cons_self
    unfold exitLoop
    refine asserts_bind fun _ => asserts_bind fun _ => asserts_bind fun hlast =>
      asserts_bind fun _ => ?_
    -- what the iterator finds is what the previous message has
    have hcert : Asserts (fun c => it.prepareFull = none →
        c = certificateInPrev prev it.prePrepare.seqNumber it.prePrepare.digestOfRequests ∧
          ∀ cert, c = some cert → cert.certificateView ≤ a)
        (if (it.hasAllRequests && it.prepareFull.isNone && !iter.atEnd) = true then
          preparedCertInPrev vm.myLatestActiveView it.prePrepare.seqNumber
            it.prePrepare.digestOfRequests
            (if (it.hasAllRequests && it.prepareFull.isNone && !iter.atEnd) = true then
              iter.goToAtLeast it.prePrepare.seqNumber else iter)
        else pure none) := by
      rw [← certificateInPrev_congr (hiter _ hlast), hview]
      refine asserts_ite (fun hlook => ?_) fun hlook => .ok fun hnone => ?_
      · rw [if_pos hlook]
        exact (preparedCertInPrev_asserts hsorted).mono fun c hc _ => hc
      · have hend : iter = [] := by
          rw [hit, hnone] at hlook
          simpa [ElementsIterator.atEnd] using hlook
        subst hend
        exact ⟨rfl, by simp⟩
    refine Asserts.bind hcert fun prevCert hprev => ?_
    refine (addToViewChange_asserts hit hview hprev vc lastExecuted).bind fun vc' hvc' => ?_
    obtain ⟨rfl, hrep⟩ := hvc'
    have hiter' : ∀ s, it.prePrepare.seqNumber < s →
        elementAt s (if (it.hasAllRequests && it.prepareFull.isNone && !iter.atEnd) = true then
          iter.goToAtLeast it.prePrepare.seqNumber else iter) = elementAt s prev := by
      intro s hs
      rw [← hiter s (lt_trans hlast hs)]
      split
      · exact elementAt_goToAtLeast (le_of_lt hs) iter
      · rfl
    have hsorted' : SortedElements
        (if (it.hasAllRequests && it.prepareFull.isNone && !iter.atEnd) = true then
          iter.goToAtLeast it.prePrepare.seqNumber else iter) := by
      split
      · exact sorted_goToAtLeast hsorted _
      · exact hsorted
    refine (ih (fun it' hit' => hall it' (mem_cons_of_mem it hit')) hsorted' hiter' _ _).mono
      fun out hout => ?_
    have hcons : filterMap (reportOf a prev) (it :: rest) =
        (reportOf a prev it).toList ++ rest.filterMap (reportOf a prev) := by
      cases h : reportOf a prev it <;> simp [h]
    refine ⟨?_, ?_, ?_, pairwise_cons.2 ⟨hout.above, hout.sorted⟩⟩
    · rw [hout.msg_eq, hcons, append_assoc]
    · rw [hcons]
      intro e he
      rcases mem_append.1 he with he | he
      · exact hrep e (by simpa using he)
      · exact hout.reportable e he
    · intro it' hit'
      rcases mem_cons.1 hit' with rfl | hit'
      · exact hlast
      · exact lt_trans hlast (hout.above it' hit')

/-! ## Leaving the view -/

/-- The elements of my previous view change message. -/
def prevElements (cfg : ReplicaConfig) (vm : ViewsManager) : List Element :=
  ((vm.getMyLatestViewChangeMsg cfg).map (·.elements)).getD []

/-- The manager leaves its view with a message that reports the numbers `infos`. -/
structure Leaves (cfg : ReplicaConfig) (v : ViewNum) (currentLastStable : SeqNum)
    (infos : List PrevViewInfo) (vm : ViewsManager) (p : ViewsManager × ViewChangeMsg) : Prop where
  before : vm.stat = .IN_VIEW ∧ vm.myLatestPendingView = vm.myLatestActiveView
  after : p.1.stat = .NO_VIEW ∧ p.1.myLatestActiveView = vm.myLatestActiveView ∧
    p.1.myLatestPendingView = vm.myLatestPendingView
  wf : p.1.Wf cfg v
  stored : ∀ i vc, p.1.Stored i vc → vm.Stored i vc ∨ (i = cfg.myId ∧ vc = p.2)
  own : p.1.getMyLatestViewChangeMsg cfg = some p.2
  pending : ∀ i, p.1.viewChangeMsgsOfPendingView i = none
  previous : vm.myLatestActiveView = 0 ∨
    ∃ vc, vm.getMyLatestViewChangeMsg cfg = some vc ∧ vc.newView = vm.myLatestActiveView
  msg_eq : p.2 = ⟨cfg.myId, vm.myLatestActiveView + 1, currentLastStable,
    infos.filterMap (reportOf vm.myLatestActiveView (vm.prevElements cfg))⟩
  reportable : ∀ e ∈ p.2.elements, Reportable vm.myLatestActiveView currentLastStable e
  sorted : infos.Pairwise fun it it' => it.prePrepare.seqNumber < it'.prePrepare.seqNumber

theorem exitFromCurrentView_asserts (h : vm.Wf cfg v) (hprev : SortedElements (vm.prevElements cfg))
    (hall : ∀ it ∈ infos, it.hasAllRequests = true)
    (hfits : ∀ it ∈ infos, it.prePrepare.DigestFits cfg)
    (currentLastStable currentLastExecuted : SeqNum) :
    Asserts (Leaves cfg v currentLastStable infos vm)
      (vm.exitFromCurrentView cfg currentLastStable currentLastExecuted infos) := by
  unfold exitFromCurrentView
  refine asserts_bind fun hstat => asserts_bind fun hpending => asserts_bind fun _ =>
    asserts_bind fun _ => asserts_bind fun _ => asserts_bind fun hmine => ?_
  refine Meets.bind_eq (exitLoop_asserts hall rfl hprev (fun _ _ => rfl) _ [] currentLastExecuted)
    fun out hloop hout => asserts_bind fun _ => .ok ?_
  obtain ⟨hwf, hstored, hnone, hsame⟩ := h.leaves hfits rfl hloop rfl rfl
  have hmsg : out.2.1 = ⟨cfg.myId, vm.myLatestActiveView + 1, currentLastStable,
      infos.filterMap (reportOf vm.myLatestActiveView (vm.prevElements cfg))⟩ := by
    rw [hout.msg_eq, nil_append]
  refine ⟨⟨hstat, hpending.symm⟩, ⟨hsame.stat_eq, hsame.activeView_eq, hsame.pendingView_eq⟩, hwf,
    hstored, ?_, hnone, ?_, hmsg, ?_, hout.sorted⟩
  · unfold getMyLatestViewChangeMsg
    rw [hnone]
    simp
  · rcases hmine with h0 | hany
    · exact Or.inl h0
    · obtain ⟨vc, hvc, hview⟩ := (Option.any_eq_true _ _).1 hany
      exact Or.inr ⟨vc, hvc, by simpa using hview⟩
  · intro e he
    rw [hmsg] at he
    exact hout.reportable e he

/-- My latest message gets the number of a later view. -/
theorem updateMyLatestViewChangeMsg_spec (h : vm.Wf cfg v) (hstat : vm.stat ≠ .IN_VIEW)
    {v' : ViewNum} (hv : v < v') (own : ViewChangeMsg) (hid : own.genReplicaId = cfg.myId) :
    (vm.updateMyLatestViewChangeMsg cfg own).Wf cfg v' ∧
      (∀ i vc, (vm.updateMyLatestViewChangeMsg cfg own).Stored i vc →
        vm.Stored i vc ∨ (i = cfg.myId ∧ vc = own)) ∧
      (vm.viewChangeMsgsOfPendingView cfg.myId = none →
        ∀ vc, (vm.updateMyLatestViewChangeMsg cfg own).Stored cfg.myId vc → vc = own) ∧
      (vm.updateMyLatestViewChangeMsg cfg own).getMyLatestViewChangeMsg cfg = some own ∧
      SameViews vm (vm.updateMyLatestViewChangeMsg cfg own) := by
  have hraised := h.raise hstat (le_of_lt hv)
  have hpending : vm.myLatestPendingView ≠ v' := by
    have := h.pending_le
    lia
  have hstored : ∀ i vc, (vm.updateMyLatestViewChangeMsg cfg own).Stored i vc →
      vm.Stored i vc ∨ (i = cfg.myId ∧ vc = own) := by
    intro i vc hvc
    unfold updateMyLatestViewChangeMsg at hvc
    split at hvc
    · rcases hvc with hvc | hvc
      · exact Or.inl (Or.inl hvc)
      · exact (eq_or_of_update hvc).symm.imp_left Or.inr
    · rcases hvc with hvc | hvc
      · exact (eq_or_of_update hvc).symm.imp_left Or.inl
      · exact Or.inl (Or.inr hvc)
  have hkeyed : (vm.updateMyLatestViewChangeMsg cfg own).Keyed := by
    intro i vc hvc
    rcases hstored i vc hvc with hold | ⟨rfl, rfl⟩
    · exact h.keyed i vc hold
    · exact hid
  unfold updateMyLatestViewChangeMsg at hkeyed hstored ⊢
  split at hkeyed
  next hsome =>
    rw [if_pos hsome] at hstored ⊢
    refine ⟨{ hraised with
      set := fun _ hno => absurd hno hpending
      computed := fun _ hno => absurd hno hpending
      noNewView := fun hno => ?_
      keyed := hkeyed
      listed := fun hno => absurd hno hpending
      kept := { h.kept with } }, hstored, fun hno => absurd hsome (by simp [hno]), ?_,
      ⟨rfl, rfl, rfl, rfl⟩⟩
    · rw [h.noNewView hno cfg.myId] at hsome
      simp at hsome
    · simp [getMyLatestViewChangeMsg]
  next hnone =>
    rw [if_neg hnone] at hstored ⊢
    have hpend : vm.viewChangeMsgsOfPendingView cfg.myId = none := by simpa using hnone
    refine ⟨{ hraised with keyed := hkeyed, kept := { h.kept with } }, hstored, ?_, ?_,
      ⟨rfl, rfl, rfl, rfl⟩⟩
    · rintro - vc (hvc | hvc)
      · dsimp only at hvc
        rw [Function.update_self] at hvc
        exact (Option.some.inj hvc).symm
      · exact absurd (hpend.symm.trans hvc) (by simp)
    · simp [getMyLatestViewChangeMsg, hpend]

end ConcordBft.ViewsManager
