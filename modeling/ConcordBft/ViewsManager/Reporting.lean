import ConcordBft.ViewChangeMsg.Wire
import ConcordBft.ViewsManager.Leaving
import Mathlib.Algebra.Order.BigOperators.Group.List

set_option autoImplicit false

/-! # The message with which a replica leaves its view

`exitFromCurrentView` fails no assertion on what a replica has in its window, and it reports every
number that may have been committed. The bytes of the message are accepted by the receivers if they end
below `2 ^ 15`: beyond that the signed 16-bit location in `checkElements` is negative, and the replica
stops in `finalizeMessage`. -/

namespace ConcordBft.ViewsManager

open Checked ViewChangeMsg List

variable {cfg : ReplicaConfig} {vm : ViewsManager} {a : ViewNum} {currentLastStable : SeqNum}
  {infos : List PrevViewInfo} {vc : ViewChangeMsg} {e : Element}

/-! ## Leaving without a failed assertion -/

/-- What a replica in view `a` has for one number of its window. -/
structure OfWindow (a : ViewNum) (currentLastStable : SeqNum) (it : PrevViewInfo) : Prop where
  allRequests : it.hasAllRequests = true
  viewNumber : it.prePrepare.viewNumber = a
  above : currentLastStable < it.prePrepare.seqNumber
  within : it.prePrepare.seqNumber ≤ currentLastStable + kWorkWindowSize
  full : ∀ pf, it.prepareFull = some pf →
    pf.seqNumber = it.prePrepare.seqNumber ∧ pf.viewNumber = a

/-- The manager is in a view, and the PrePrepares of the window are in the order of their numbers. -/
structure CanLeave (cfg : ReplicaConfig) (currentLastStable : SeqNum) (infos : List PrevViewInfo)
    (vm : ViewsManager) : Prop where
  stat : vm.stat = .IN_VIEW
  pending : vm.myLatestActiveView = vm.myLatestPendingView
  collection : vm.collectionOfPrePrepareMsgs = []
  known : vm.debugHighestKnownStable ≤ currentLastStable
  bound : vm.lowerBoundStableForPendingView ≤ currentLastStable
  hasPrevious : vm.myLatestActiveView = 0 ∨ (vm.getMyLatestViewChangeMsg cfg).isSome = true
  previous : ∀ own, vm.getMyLatestViewChangeMsg cfg = some own →
    own.newView = vm.myLatestActiveView ∧ own.checkElements = true
  window : ∀ it ∈ infos, OfWindow vm.myLatestActiveView currentLastStable it
  sorted : infos.Pairwise fun it it' => it.prePrepare.seqNumber < it'.prePrepare.seqNumber

/-- An element that the assertions on the previous message accept. -/
def FromEarlierView (a : ViewNum) (e : Element) : Prop :=
  e.originView ≤ a ∧ ∀ c, e.preparedCertificate = some c → c.certificateView ≤ e.originView

theorem preparedCertInPrev_returns {s : SeqNum} {d : Digest} {iter : ElementsIterator}
    (h : ∀ e ∈ iter, FromEarlierView a e) : ∃ c, preparedCertInPrev a s d iter = .ok c := by
  unfold preparedCertInPrev
  cases iter with
  | nil => exact ⟨none, rfl⟩
  | cons e rest =>
    obtain ⟨horigin, hcert⟩ := h e mem_cons_self
    simp only [ElementsIterator.getCurrent, head?_cons]
    cases hc : e.preparedCertificate with
    | none => exact ⟨none, rfl⟩
    | some c =>
      dsimp only
      split_ifs
      · rw [assert_bind_of horigin, assert_bind_of (hcert c hc)]
        exact ⟨some c, rfl⟩
      · exact ⟨none, rfl⟩

theorem addToViewChange_returns {it : PrevViewInfo}
    (hit : OfWindow vm.myLatestActiveView vc.lastStable it)
    (hlength : (vc.elements.length : Int) < kWorkWindowSize) (lastExecuted : SeqNum)
    (cert : Option PreparedCertificate) :
    ∃ vc', vm.addToViewChange lastExecuted it cert vc = .ok vc' ∧ vc'.lastStable = vc.lastStable ∧
      vc'.elements.length ≤ vc.elements.length + 1 := by
  have hadd : ∀ e : Element, e.seqNum = it.prePrepare.seqNumber → ∃ vc', vc.addElement e = .ok vc' ∧
      vc'.lastStable = vc.lastStable ∧ vc'.elements.length ≤ vc.elements.length + 1 := by
    intro e he
    refine ⟨{ vc with elements := vc.elements ++ [e] }, ?_, rfl, by simp⟩
    unfold addElement
    rw [assert_bind_of hlength, assert_bind_of (he ▸ hit.above), assert_bind_of (he ▸ hit.within)]
    rfl
  unfold addToViewChange
  dsimp only
  cases hpf : it.prepareFull with
  | some pf =>
    obtain ⟨hseq, hview⟩ := hit.full pf hpf
    dsimp only
    rw [assert_bind_of hseq.symm, assert_bind_of hview]
    exact hadd _ rfl
  | none =>
    cases cert with
    | some c => exact hadd _ rfl
    | none =>
      rw [hit.allRequests]
      cases hnull : it.prePrepare.isNull with
      | false => exact hadd _ rfl
      | true =>
        refine ⟨vc, ?_, rfl, Nat.le_succ _⟩
        rw [assert_bind_of (Or.inr rfl)]
        rfl

/-- The loop fails no assertion: the elements are fewer than the numbers passed so far. -/
theorem exitLoop_returns {iter : ElementsIterator} {last : SeqNum}
    (hinfos : ∀ it ∈ infos, OfWindow vm.myLatestActiveView vc.lastStable it)
    (hsorted : infos.Pairwise fun it it' => it.prePrepare.seqNumber < it'.prePrepare.seqNumber)
    (hlast : ∀ it ∈ infos, last < it.prePrepare.seqNumber)
    (hbound : vm.lowerBoundStableForPendingView ≤ last)
    (hiter : ∀ e ∈ iter, FromEarlierView vm.myLatestActiveView e)
    (hlength : (vc.elements.length : Int) ≤ last - vc.lastStable)
    (hwithin : last ≤ vc.lastStable + kWorkWindowSize) (collection : List (SeqNum × PrePrepareMsg))
    (lastExecuted : SeqNum) :
    ∃ out, vm.exitLoop lastExecuted infos iter last vc collection = .ok out ∧
      out.1 ≤ vc.lastStable + kWorkWindowSize := by
  induction infos generalizing iter last vc collection with
  | nil => exact ⟨_, rfl, hwithin⟩
  | cons it rest ih =>
    have hit := hinfos it mem_cons_self
    have hlt := hlast it mem_cons_self
    obtain ⟨hhead, htail⟩ := pairwise_cons.1 hsorted
    unfold exitLoop
    rw [assert_bind_of hit.viewNumber, assert_bind_of (lt_of_le_of_lt hbound hlt),
      assert_bind_of hlt, assert_bind_of (Or.inr hit.allRequests)]
    dsimp only
    generalize hlooks : (it.hasAllRequests && it.prepareFull.isNone && !iter.atEnd) = looksInPrev
    have hiter' : ∀ e ∈ (if looksInPrev then iter.goToAtLeast it.prePrepare.seqNumber else iter),
        FromEarlierView vm.myLatestActiveView e := by
      intro e he
      split_ifs at he
      · exact hiter e ((dropWhile_sublist _).mem he)
      · exact hiter e he
    obtain ⟨cert, hcert⟩ : ∃ cert, (if looksInPrev then
        preparedCertInPrev vm.myLatestActiveView it.prePrepare.seqNumber
          it.prePrepare.digestOfRequests
          (if looksInPrev then iter.goToAtLeast it.prePrepare.seqNumber else iter)
        else pure none) = Except.ok cert := by
      by_cases hlook : looksInPrev = true
      · rw [if_pos hlook]
        exact preparedCertInPrev_returns hiter'
      · rw [if_neg hlook]
        exact ⟨none, rfl⟩
    have hin := hit.within
    obtain ⟨vc', hvc', hstable, hcount⟩ :=
      addToViewChange_returns hit (by lia) lastExecuted cert
    rw [hcert, ok_bind, hvc']
    rw [← hstable]
    apply ih
    · intro it' hit'
      rw [hstable]
      exact hinfos it' (mem_cons_of_mem it hit')
    · exact htail
    · exact hhead
    · lia
    · exact hiter'
    · lia
    · rw [hstable]
      exact hin

/-- The elements of the message with which the view is left. -/
def reports (cfg : ReplicaConfig) (vm : ViewsManager) (infos : List PrevViewInfo) : List Element :=
  infos.filterMap (reportOf vm.myLatestActiveView (vm.prevElements cfg))

theorem CanLeave.mem_prevElements (h : CanLeave cfg currentLastStable infos vm)
    (he : e ∈ vm.prevElements cfg) :
    ∃ own, vm.getMyLatestViewChangeMsg cfg = some own ∧ e ∈ own.elements ∧
      e.Accepted vm.myLatestActiveView own.lastStable := by
  unfold prevElements at he
  cases hown : vm.getMyLatestViewChangeMsg cfg with
  | none =>
    rw [hown] at he
    simp at he
  | some own =>
    rw [hown] at he
    obtain ⟨hview, hcheck⟩ := h.previous own hown
    have haccepted := accepted_of_checkElements hcheck he
    rw [hview] at haccepted
    exact ⟨own, rfl, he, haccepted⟩

theorem CanLeave.sorted_prevElements (h : CanLeave cfg currentLastStable infos vm) :
    SortedElements (vm.prevElements cfg) := by
  unfold prevElements
  cases hown : vm.getMyLatestViewChangeMsg cfg with
  | none => exact Pairwise.nil
  | some own => exact sorted_of_checkElements (h.previous own hown).2

/-- As many growing numbers as there are between two bounds. -/
theorem length_le_of_sorted {last hi : SeqNum} (hle : last ≤ hi)
    (hsorted : infos.Pairwise fun it it' => it.prePrepare.seqNumber < it'.prePrepare.seqNumber)
    (hlast : ∀ it ∈ infos, last < it.prePrepare.seqNumber)
    (hhi : ∀ it ∈ infos, it.prePrepare.seqNumber ≤ hi) : (infos.length : Int) ≤ hi - last := by
  induction infos generalizing last with
  | nil =>
    simp only [length_nil]
    lia
  | cons it rest ih =>
    obtain ⟨hhead, htail⟩ := pairwise_cons.1 hsorted
    have hlt := hlast it mem_cons_self
    have hrest := ih (hhi it mem_cons_self) htail hhead fun it' hit' =>
      hhi it' (mem_cons_of_mem it hit')
    rw [length_cons]
    lia

theorem CanLeave.length_le (h : CanLeave cfg currentLastStable infos vm) :
    (infos.length : Int) ≤ kWorkWindowSize := by
  have hwindow : currentLastStable ≤ currentLastStable + kWorkWindowSize := by
    unfold kWorkWindowSize
    lia
  have hle := length_le_of_sorted hwindow h.sorted (fun it hit => (h.window it hit).above)
    fun it hit => (h.window it hit).within
  lia

/-- **Leaving the view** fails no assertion and reports what the window holds. -/
theorem CanLeave.exitFromCurrentView (h : CanLeave cfg currentLastStable infos vm)
    (currentLastExecuted : SeqNum) :
    ∃ vm', vm.exitFromCurrentView cfg currentLastStable currentLastExecuted infos =
      .ok (vm', ⟨cfg.myId, vm.myLatestActiveView + 1, currentLastStable, vm.reports cfg infos⟩) := by
  have hmine : vm.myLatestActiveView = 0 ∨ (vm.getMyLatestViewChangeMsg cfg).any
      (fun vc => vc.newView == vm.myLatestActiveView) = true := by
    rcases h.hasPrevious with h0 | hsome
    · exact Or.inl h0
    · obtain ⟨own, hown⟩ := Option.isSome_iff_exists.1 hsome
      simp [hown, (h.previous own hown).1]
  have hwindow : currentLastStable ≤ currentLastStable + kWorkWindowSize := by
    unfold kWorkWindowSize
    lia
  have hprev : ∀ e ∈ vm.prevElements cfg, FromEarlierView vm.myLatestActiveView e := by
    intro e he
    obtain ⟨own, -, -, haccepted⟩ := h.mem_prevElements he
    exact ⟨le_of_lt haccepted.originView_lt, haccepted.cert_le⟩
  let start : ViewChangeMsg := ⟨cfg.myId, vm.myLatestActiveView + 1, currentLastStable, []⟩
  have hwindow' : ∀ it ∈ infos, OfWindow vm.myLatestActiveView start.lastStable it := h.window
  obtain ⟨out, hout, hle⟩ := exitLoop_returns hwindow' h.sorted
    (fun it hit => (h.window it hit).above) h.bound hprev (by simp [start]) hwindow []
    currentLastExecuted
  have hloop : ExitLoopResult vm.myLatestActiveView (vm.prevElements cfg) infos currentLastStable
      start out := (exitLoop_asserts (fun it hit => (h.window it hit).allRequests) rfl
    h.sorted_prevElements (fun _ _ => rfl) start [] currentLastExecuted).of_ok hout
  have hmsg : out.2.1 =
      ⟨cfg.myId, vm.myLatestActiveView + 1, currentLastStable, vm.reports cfg infos⟩ := by
    rw [hloop.msg_eq]
    rfl
  have hspan : out.1 - currentLastStable ≤ kWorkWindowSize := by
    lia
  unfold ViewsManager.exitFromCurrentView
  rw [assert_bind_of h.stat, assert_bind_of h.pending, assert_bind_of h.length_le,
    assert_bind_of h.collection, assert_bind_of h.known, assert_bind_of hmine]
  unfold prevElements at hout
  rw [hout, ok_bind]
  dsimp only
  rw [assert_bind_of hspan, hmsg]
  exact ⟨_, rfl⟩

/-! ## The message -/

/-- The numbers of the replica are 64-bit ones. -/
structure NumbersFit (cfg : ReplicaConfig) (currentLastStable : SeqNum) (nextView : ViewNum)
    (vm : ViewsManager) : Prop where
  stable : -2 ^ 63 ≤ currentLastStable ∧ currentLastStable + kWorkWindowSize < 2 ^ 63
  active : -2 ^ 63 ≤ vm.myLatestActiveView
  nextView : nextView < 2 ^ 63
  previous : ∀ e ∈ vm.prevElements cfg, e.Fits

theorem mem_of_certificateInPrev {prev : ElementsIterator} {s : SeqNum} {d : Digest}
    {c : PreparedCertificate} (h : certificateInPrev prev s d = some c) :
    ∃ e ∈ prev, e.preparedCertificate = some c := by
  obtain ⟨e, he, hc⟩ := Option.bind_eq_some_iff.1 h
  refine ⟨e, mem_of_find?_eq_some he, ?_⟩
  split_ifs at hc
  exact hc

theorem CanLeave.mem_reports (h : CanLeave cfg currentLastStable infos vm)
    (he : e ∈ vm.reports cfg infos) :
    (currentLastStable < e.seqNum ∧ e.seqNum ≤ currentLastStable + kWorkWindowSize) ∧
      e.originView = vm.myLatestActiveView ∧ ∀ c, e.preparedCertificate = some c →
        (∃ it ∈ infos, ∃ pf, it.prepareFull = some pf ∧
          c = ⟨vm.myLatestActiveView, pf.signatureBody⟩) ∨
        ∃ e' ∈ vm.prevElements cfg, e'.preparedCertificate = some c := by
  obtain ⟨it, hit, hreport⟩ := mem_filterMap.1 he
  obtain ⟨hseq, horigin, hcert⟩ := of_reportOf hreport
  have hwindow := h.window it hit
  refine ⟨⟨hseq ▸ hwindow.above, hseq ▸ hwindow.within⟩, horigin, ?_⟩
  intro c hc
  rcases hcert c hc with ⟨pf, hpf, heq⟩ | hprev
  · exact Or.inl ⟨it, hit, pf, hpf, heq⟩
  · exact Or.inr (mem_of_certificateInPrev hprev)

theorem size_le_sizeOfElements {es : List Element} (h : e ∈ es) : e.size ≤ sizeOfElements es :=
  single_le_sum (by simp) _ (mem_map_of_mem h)

theorem CanLeave.fits (h : CanLeave cfg currentLastStable infos vm) {nextView : ViewNum}
    (hnext : vm.myLatestActiveView < nextView)
    (hnumbers : NumbersFit cfg currentLastStable nextView vm) {sigLength : ℕ}
    (hsize : sizeofViewChangeMsgHeader + sizeOfElements (vm.reports cfg infos) + sigLength ≤
      maxExternalMessageSize) :
    ViewChangeMsg.Fits ⟨cfg.myId, nextView, currentLastStable, vm.reports cfg infos⟩ sigLength where
  newView := ⟨le_trans hnumbers.active (le_of_lt hnext), hnumbers.nextView⟩
  lastStable := hnumbers.stable
  elements := by
    intro e he
    obtain ⟨⟨habove, hwithin⟩, horigin, hcert⟩ := h.mem_reports he
    have hactive := hnumbers.active
    have hnextView := hnumbers.nextView
    have hstable := hnumbers.stable
    refine ⟨⟨by lia, by lia⟩, ⟨by lia, by lia⟩, ?_, ?_⟩
    · intro c hc
      rcases hcert c hc with ⟨it, -, pf, -, rfl⟩ | ⟨e', he', hc'⟩
      · exact ⟨hactive, by dsimp only; lia⟩
      · exact (hnumbers.previous e' he').certificateView c hc'
    · intro c hc
      have hle : e.size ≤ sizeOfElements (vm.reports cfg infos) := size_le_sizeOfElements he
      rw [Element.size, hc, Option.map_some, Option.getD_some] at hle
      unfold maxExternalMessageSize at hsize
      omega
  size_le := hsize

/-- The elements are fine exactly if no certificate of the left view has an empty signature. -/
theorem CanLeave.checkElements_iff (h : CanLeave cfg currentLastStable infos vm) {nextView : ViewNum}
    (hnext : vm.myLatestActiveView < nextView) :
    checkElements ⟨cfg.myId, nextView, currentLastStable, vm.reports cfg infos⟩ = true ↔
      ∀ it ∈ infos, ∀ pf, it.prepareFull = some pf → pf.signatureBody ≠ [] := by
  constructor
  · intro hcheck it hit pf hpf
    have hreport : ⟨it.prePrepare.seqNumber, it.prePrepare.digestOfRequests, vm.myLatestActiveView,
        some ⟨vm.myLatestActiveView, pf.signatureBody⟩⟩ ∈ vm.reports cfg infos := by
      apply mem_filterMap.2
      exact ⟨it, hit, by simp [reportOf, hpf]⟩
    exact (accepted_of_checkElements hcheck hreport).cert_sig _ rfl
  · intro hsigs
    apply checkElementsFrom_complete (sorted_reports h.sorted)
    · intro e he
      exact (h.mem_reports he).1.1
    · intro e he
      obtain ⟨⟨habove, hwithin⟩, horigin, hcert⟩ := h.mem_reports he
      refine ⟨habove, hwithin, horigin ▸ hnext, ?_, ?_⟩
      · intro c hc
        rcases hcert c hc with ⟨it, -, pf, -, rfl⟩ | ⟨e', he', hc'⟩
        · lia
        · obtain ⟨own, -, -, haccepted⟩ := h.mem_prevElements he'
          have hle := haccepted.cert_le c hc'
          have hlt := haccepted.originView_lt
          lia
      · intro c hc
        rcases hcert c hc with ⟨it, hit, pf, hpf, rfl⟩ | ⟨e', he', hc'⟩
        · exact hsigs it hit pf hpf
        · obtain ⟨own, -, -, haccepted⟩ := h.mem_prevElements he'
          exact haccepted.cert_sig c hc'

/-- The elements are written to the buffer one after the other. -/
theorem CanLeave.foldlM_addElement (h : CanLeave cfg currentLastStable infos vm) {sigLength : ℕ}
    (hsize : sizeofViewChangeMsgHeader + sizeOfElements (vm.reports cfg infos) + sigLength ≤
      maxExternalMessageSize) :
    (vm.reports cfg infos).foldlM (ViewChangeBuffer.addElement sigLength)
      ⟨cfg.myId, vm.myLatestActiveView + 1, currentLastStable, 0, 0, []⟩ =
        .ok (buffer
          ⟨cfg.myId, vm.myLatestActiveView + 1, currentLastStable, vm.reports cfg infos⟩) := by
  have hcount : ((vm.reports cfg infos).length : Int) ≤ kWorkWindowSize := by
    have hle := length_filterMap_le (reportOf vm.myLatestActiveView (vm.prevElements cfg)) infos
    have hlength := h.length_le
    unfold reports
    lia
  exact foldlM_addElement_buffer
    (m := ⟨cfg.myId, vm.myLatestActiveView + 1, currentLastStable, []⟩) (by simpa using hcount)
    (fun e he => (h.mem_reports he).1) hsize

/-- **What a replica reports when it leaves its view**: `exitFromCurrentView` returns the message with
    the elements of all PrePrepares of the window that are not null or have a certificate, in
    increasing order, and these are the bytes that are written. The message can be finished, and is
    accepted by its receivers, if and only if no certificate is empty and the elements end below
    `2 ^ 15`. -/
theorem exitFromCurrentView_accepted_iff (h : CanLeave cfg currentLastStable infos vm)
    (currentLastExecuted : SeqNum) {nextView : ViewNum} (hnext : vm.myLatestActiveView < nextView)
    (hnumbers : NumbersFit cfg currentLastStable nextView vm) {signature : Bytes}
    (hsize : sizeofViewChangeMsgHeader + sizeOfElements (vm.reports cfg infos) + signature.length ≤
      maxExternalMessageSize) :
    ∃ vm' m m',
      vm.exitFromCurrentView cfg currentLastStable currentLastExecuted infos = .ok (vm', m) ∧
      m.elements = infos.filterMap (reportOf vm.myLatestActiveView (vm.prevElements cfg)) ∧
      SortedElements m.elements ∧
      m.elements.foldlM (ViewChangeBuffer.addElement signature.length)
        ⟨cfg.myId, vm.myLatestActiveView + 1, currentLastStable, 0, 0, []⟩ = .ok m.buffer ∧
      m.setNewViewNumber nextView = .ok m' ∧
      ((∃ body, m'.buffer.finalizeMessage signature = .ok body ∧
          ViewChangeBody.checkElements body signature.length = some true) ↔
        (∀ it ∈ infos, ∀ pf, it.prepareFull = some pf → pf.signatureBody ≠ []) ∧
          sizeofViewChangeMsgHeader + sizeOfElements (vm.reports cfg infos) < 2 ^ 15) := by
  obtain ⟨vm', hexit⟩ := h.exitFromCurrentView currentLastExecuted
  have hset : setNewViewNumber
      ⟨cfg.myId, vm.myLatestActiveView + 1, currentLastStable, vm.reports cfg infos⟩ nextView =
        .ok ⟨cfg.myId, nextView, currentLastStable, vm.reports cfg infos⟩ := by
    have hle : vm.myLatestActiveView + 1 ≤ nextView := by lia
    unfold setNewViewNumber
    rw [assert_bind_of hle]
    rfl
  have hfits := h.fits hnext hnumbers hsize
  refine ⟨vm', _, _, hexit, rfl, sorted_reports h.sorted, h.foldlM_addElement hsize, hset, ?_⟩
  rw [finalizeMessage_buffer hfits, ← h.checkElements_iff hnext]
  constructor
  · rintro ⟨body, hbody, -⟩
    split_ifs at hbody with hboth
    exact hboth
  · intro hboth
    rw [if_pos hboth]
    exact ⟨_, rfl, (checkElements_finishedBytes hfits).2 hboth⟩

theorem canLeave_start (hwindow : ∀ it ∈ infos, OfWindow 0 0 it)
    (hsorted : infos.Pairwise fun it it' => it.prePrepare.seqNumber < it'.prePrepare.seqNumber) :
    CanLeave cfg 0 infos {} where
  stat := rfl
  pending := rfl
  collection := rfl
  known := le_refl _
  bound := le_refl _
  hasPrevious := Or.inl rfl
  previous := by
    intro own hown
    exact absurd hown (by simp [getMyLatestViewChangeMsg])
  window := hwindow
  sorted := hsorted

theorem numbersFit_start : NumbersFit cfg 0 1 {} where
  stable := by decide
  active := by decide
  nextView := by decide
  previous := by
    intro e he
    exact absurd he (by simp [prevElements, getMyLatestViewChangeMsg])

/-- The numbers `1, …, n` of view 0, all prepared, with certificates of `sigLength` bytes. -/
def preparedUpTo (n sigLength : ℕ) : List PrevViewInfo :=
  (List.range n).map fun (k : ℕ) =>
    ⟨⟨0, 0, k + 1, .SLOW, false, 2, [⟨4, 1, false, [], 0⟩]⟩, true,
      some ⟨0, 0, k + 1, List.replicate sigLength 7⟩⟩

theorem canLeave_preparedUpTo {n : ℕ} (h : n ≤ 300) (sigLength : ℕ) :
    CanLeave cfg 0 (preparedUpTo n sigLength) {} := by
  apply canLeave_start
  · intro it hit
    obtain ⟨k, hk, rfl⟩ := mem_map.1 hit
    have hlt := mem_range.1 hk
    refine ⟨rfl, rfl, ?_, ?_, ?_⟩
    · lia
    · dsimp only [kWorkWindowSize]
      lia
    · intro pf hpf
      obtain rfl := Option.some.inj hpf
      exact ⟨rfl, rfl⟩
  · apply pairwise_map.2
    apply pairwise_lt_range.imp
    lia

theorem exitFromCurrentView_accepted_preparedUpTo :
    ∃ vm' m m' body, ViewsManager.exitFromCurrentView (fourReplicas 1) {} 0 3 (preparedUpTo 3 33) =
        .ok (vm', m) ∧ m.setNewViewNumber 1 = .ok m' ∧
      m'.buffer.finalizeMessage (List.replicate 256 1) = .ok body ∧
      ViewChangeBody.checkElements body 256 = some true := by
  have hleave : CanLeave (fourReplicas 1) 0 (preparedUpTo 3 33) {} :=
    canLeave_preparedUpTo (by decide) 33
  have hend : sizeofViewChangeMsgHeader +
      sizeOfElements (reports (fourReplicas 1) {} (preparedUpTo 3 33)) = 300 := by decide +kernel
  have hlength : (replicate 256 (1 : UInt8)).length = 256 := length_replicate
  have hsize : sizeofViewChangeMsgHeader +
      sizeOfElements (reports (fourReplicas 1) {} (preparedUpTo 3 33)) +
        (replicate 256 (1 : UInt8)).length ≤ maxExternalMessageSize := by
    rw [hlength]
    decide
  obtain ⟨vm', m, m', hexit, -, -, -, hset, hiff⟩ :=
    exitFromCurrentView_accepted_iff hleave 3 (by decide) numbersFit_start hsize
  have hsigs : ∀ it ∈ preparedUpTo 3 33, ∀ pf, it.prepareFull = some pf → pf.signatureBody ≠ [] := by
    intro it hit pf hpf
    obtain ⟨k, -, rfl⟩ := mem_map.1 hit
    obtain rfl := Option.some.inj hpf
    simp
  obtain ⟨body, hbody, haccepted⟩ := hiff.2 ⟨hsigs, by rw [hend]; decide⟩
  rw [hlength] at haccepted
  exact ⟨vm', m, m', body, hexit, hset, hbody, haccepted⟩

/-- A hundred certificates of 289 bytes fit in the buffer, but the replica stops before it sends
    them. -/
theorem finalizeMessage_fails_preparedUpTo :
    ∃ vm' m, ViewsManager.exitFromCurrentView (fourReplicas 1) {} 0 100 (preparedUpTo 100 289) =
        .ok (vm', m) ∧
      m.elements.foldlM (ViewChangeBuffer.addElement 256) ⟨1, 1, 0, 0, 0, []⟩ = .ok m.buffer ∧
      m.buffer.finalizeMessage (List.replicate 256 1) = .error .assertion := by
  have hleave : CanLeave (fourReplicas 1) 0 (preparedUpTo 100 289) {} :=
    canLeave_preparedUpTo (by decide) 289
  have hend : sizeofViewChangeMsgHeader +
      sizeOfElements (reports (fourReplicas 1) {} (preparedUpTo 100 289)) = 34824 := by decide +kernel
  have hlength : (replicate 256 (1 : UInt8)).length = 256 := length_replicate
  have hsize : sizeofViewChangeMsgHeader +
      sizeOfElements (reports (fourReplicas 1) {} (preparedUpTo 100 289)) +
        (replicate 256 (1 : UInt8)).length ≤ maxExternalMessageSize := by
    rw [hend, hlength]
    decide
  obtain ⟨vm', hexit⟩ := hleave.exitFromCurrentView 100
  refine ⟨vm', _, hexit, ?_, ?_⟩
  · rw [hlength] at hsize
    exact hleave.foldlM_addElement hsize
  · have hfinal := finalizeMessage_buffer
      (hleave.fits (by decide) numbersFit_start hsize)
    rw [if_neg] at hfinal
    · exact hfinal
    · intro ⟨_, hlt⟩
      dsimp only at hlt
      omega

end ConcordBft.ViewsManager
