import ConcordBft.ReplicaImp.Runs
import ConcordBft.ViewChangeSafetyLogic.Safety
import ConcordBft.ViewsManager.Entering

set_option autoImplicit false

/-! # The numbers that a new primary has used

Two replicas that enter a view with the same messages may restrict different windows: each starts
its window at the lower bound that it had when the view became pending, which is at least its own
stable point. The primary goes on after the last number of its own window. A replica with a higher
lower bound restricts numbers beyond that, and has a PrePrepare there that the primary does not know
of. -/

namespace ConcordBft

open Checked ViewChangeSafetyLogic

/-- The messages ask for requests at `s`. -/
def ViewChangeSafetyLogic.Demands (l : ViewChangeSafetyLogic)
    (msgs : ReplicaId → Option ViewChangeMsg) (s : SeqNum) : Prop :=
  ∃ d, l.selection (l.elementsFor msgs s) = some d ∧ d ≠ l.nullDigest

namespace ViewsManager

variable {cfg : ReplicaConfig} {v : ViewNum} {vm vm' : ViewsManager} {stable s : SeqNum}
  {pps : List PrePrepareMsg}

/-- The manager has computed a restriction for `s` that is not null. -/
def Restricts (vm : ViewsManager) (s : SeqNum) : Prop :=
  vm.lowerBoundStableForPendingView < s ∧
    ∃ r ∈ vm.restrictionsHeld.restrictionAt vm.lowerBoundStableForPendingView s, r.isNull = false

instance (vm : ViewsManager) (s : SeqNum) : Decidable (vm.Restricts s) :=
  inferInstanceAs (Decidable (_ ∧ ∃ r ∈ _, Restriction.isNull r = false))

theorem Computed.spec (h : vm.Computed cfg vm.restrictionsHeld)
    (haccepted : cfg.safetyLogic.AcceptedMsgs vm.viewChangeMsgsOfPendingView) :
    ViewChangeSafetyLogic.RestrictionsSpec cfg.safetyLogic vm.viewChangeMsgsOfPendingView
      vm.lowerBoundStableForPendingView vm.restrictionsHeld := by
  obtain ⟨arr, hlength, hout⟩ := h
  obtain ⟨out, hout', hspec⟩ := computeRestrictions_spec haccepted
    vm.lowerBoundStableForPendingView hlength
  obtain rfl := Except.ok.inj (hout.symm.trans hout')
  exact hspec

/-- The restrictions are what the messages ask for, inside of the window. -/
theorem Enters.restricts_iff (h : Enters cfg v stable vm vm' pps)
    (haccepted : cfg.safetyLogic.AcceptedMsgs vm'.viewChangeMsgsOfPendingView)
    (hverdict : vm'.lowerBoundStableForPendingView < s →
      s ≤ vm'.lowerBoundStableForPendingView + kWorkWindowSize → cfg.safetyLogic.SameVerdict
        (cfg.safetyLogic.elementsFor vm'.viewChangeMsgsOfPendingView s)) :
    vm'.Restricts s ↔ vm'.lowerBoundStableForPendingView < s ∧
      s ≤ vm'.lowerBoundStableForPendingView + kWorkWindowSize ∧
      cfg.safetyLogic.Demands vm'.viewChangeMsgsOfPendingView s := by
  have hspec := h.computed.spec haccepted
  obtain ⟨-, lb, hlb, -⟩ := h.set
  have hlength : (cfg.safetyLogic.elementsFor vm'.viewChangeMsgsOfPendingView s).length ≤
      2 * cfg.safetyLogic.F + 2 * cfg.safetyLogic.C + 1 := by
    rw [← (calcLBStableForView_ok hlb).2]
    exact List.length_filterMap_le _ _
  refine and_congr_right fun hlo => ?_
  by_cases hhi : s ≤ vm'.lowerBoundStableForPendingView + kWorkWindowSize
  · obtain ⟨r, es, hr, hperm, hmatches⟩ := hspec.entry s hlo hhi
    rw [Restriction.Matches, ← selection_perm hperm.symm (hverdict hlo hhi) hlength] at hmatches
    constructor
    · rintro ⟨r', hr', hnull⟩
      obtain rfl := Option.some.inj (hr.symm.trans hr')
      refine ⟨hhi, r.digest, ?_⟩
      split_ifs at hmatches with hsel
      · exact absurd (hnull.symm.trans hmatches) (by simp)
      · obtain ⟨-, heq⟩ := hmatches
        exact ⟨heq, fun hd => hsel (Or.inr (hd ▸ heq))⟩
    · rintro ⟨-, d, hd, hne⟩
      rw [hd, if_neg (by simp [hne])] at hmatches
      exact ⟨r, hr, hmatches.1⟩
  · -- the array has no entry above the window
    constructor
    · rintro ⟨r, hr, -⟩
      obtain ⟨hlt, -⟩ := List.getElem?_eq_some_iff.1 hr
      have hlen := hspec.length_eq
      lia
    · exact fun hin => absurd hin.1 hhi

section

variable (h : Enters cfg v stable vm vm' pps)
  (haccepted : cfg.safetyLogic.AcceptedMsgs vm'.viewChangeMsgsOfPendingView)
include h haccepted

theorem Enters.max_le :
    vm'.maxRestrictionOfPendingView ≤ vm'.lowerBoundStableForPendingView + kWorkWindowSize := by
  have hbound := h.wf.kept.bound_nonneg
  have hrange := (h.computed.spec haccepted).range
  dsimp only [restrictionsHeld] at hrange
  unfold kWorkWindowSize checkpointWindowSize at *
  lia

end

end ViewsManager

namespace ReplicaImp

open ViewsManager

variable {App : Type} {cfg : ReplicaConfig} {r : ReplicaImp App} {v : ViewNum}
  {vm vm' : ViewsManager} {pps : List PrePrepareMsg}

/-- The counter of the primary on entry is its stable point or the end of its restricted range. -/
theorem primaryLastUsedSeqNum_of_entry
    (h : Enters cfg v r.lastStableSeqNum vm vm' pps) :
    r.lastStableSeqNum ≤ (r.setCountersOfNewView pps).primaryLastUsedSeqNum ∧
      ((r.setCountersOfNewView pps).primaryLastUsedSeqNum = r.lastStableSeqNum ∧
          (vm'.minRestrictionOfPendingView = 0 ∨
            vm'.maxRestrictionOfPendingView ≤ r.lastStableSeqNum) ∨
        (r.setCountersOfNewView pps).primaryLastUsedSeqNum = vm'.maxRestrictionOfPendingView) := by
  obtain ⟨last, hcounters, hle, -, -, hlast⟩ := counters_of_entry
    (show Enters cfg ({ r with curView := v, viewsManager := vm } : ReplicaImp App).curView
      r.lastStableSeqNum ({ r with curView := v, viewsManager := vm } : ReplicaImp App).viewsManager
      vm' pps from h)
  have hsame : (r.setCountersOfNewView pps).primaryLastUsedSeqNum = last := by
    have := congrArg (·.primaryLastUsedSeqNum) hcounters
    unfold setCountersOfNewView at this ⊢
    split_ifs at this ⊢ <;> exact this
  rw [hsame]
  exact ⟨hle, hlast⟩

/-- **The new primary has used every number that another replica restricts, exactly if none of them
    lies above the primary's own window and stable point.** `P` is the primary and `R` another
    replica; both enter view `v` with the same accepted messages, in which certificates of one view
    and digest have the same verdict, for the numbers of the window of `R`. -/
theorem primaryLastUsed_covers_iff {cfgP cfgR : ReplicaConfig}
    (hlogic : cfgR.safetyLogic = cfgP.safetyLogic) {runP runR : ViewsRun}
    (hP : ViewsRun.Reaches cfgP {} runP) (hR : ViewsRun.Reaches cfgR {} runR)
    (hvP : runP.curView ≤ v) (hvR : runR.curView ≤ v) {rP : ReplicaImp App}
    {executedP stableR executedR : SeqNum} {vmP vmR : ViewsManager} {ppsP ppsR : List PrePrepareMsg}
    (hentersP : runP.vm.tryToEnterView cfgP v rP.lastStableSeqNum executedP = .ok (vmP, some ppsP))
    (hentersR : runR.vm.tryToEnterView cfgR v stableR executedR = .ok (vmR, some ppsR))
    (hset : cfgP.safetyLogic.messages vmR.viewChangeMsgsOfPendingView =
      cfgP.safetyLogic.messages vmP.viewChangeMsgsOfPendingView)
    (haccepted : cfgP.safetyLogic.AcceptedMsgs vmP.viewChangeMsgsOfPendingView)
    (hverdict : ∀ s, vmR.lowerBoundStableForPendingView < s →
      s ≤ vmR.lowerBoundStableForPendingView + kWorkWindowSize → cfgP.safetyLogic.SameVerdict
        (cfgP.safetyLogic.elementsFor vmP.viewChangeMsgsOfPendingView s)) :
    (∀ s, vmR.Restricts s → s ≤ (rP.setCountersOfNewView ppsP).primaryLastUsedSeqNum) ↔
      ∀ s, vmR.lowerBoundStableForPendingView < s →
        s ≤ vmR.lowerBoundStableForPendingView + kWorkWindowSize →
        cfgP.safetyLogic.Demands vmP.viewChangeMsgsOfPendingView s →
        s ≤ max rP.lastStableSeqNum (vmP.lowerBoundStableForPendingView + kWorkWindowSize) := by
  have hinP := hP.enters hvP hentersP
  have hinR := hR.enters hvR hentersR
  -- both see the same elements
  have helements : ∀ s, cfgP.safetyLogic.elementsFor vmR.viewChangeMsgsOfPendingView s =
      cfgP.safetyLogic.elementsFor vmP.viewChangeMsgsOfPendingView s := by
    intro s
    rw [elementsFor, hset]
    rfl
  have hacceptedR : cfgR.safetyLogic.AcceptedMsgs vmR.viewChangeMsgsOfPendingView := by
    rw [hlogic, AcceptedMsgs, hset]
    exact haccepted
  have hrestricts : ∀ s, vmR.Restricts s ↔ vmR.lowerBoundStableForPendingView < s ∧
      s ≤ vmR.lowerBoundStableForPendingView + kWorkWindowSize ∧
      cfgP.safetyLogic.Demands vmP.viewChangeMsgsOfPendingView s := by
    intro s
    have hverdictR := hverdict s
    rw [← helements] at hverdictR
    rw [hinR.restricts_iff hacceptedR (by rw [hlogic]; exact hverdictR), hlogic, Demands, helements]
    rfl
  obtain ⟨hstable, hused⟩ := primaryLastUsedSeqNum_of_entry hinP
  have hbound := hinP.bound_le
  constructor
  · intro hcovers s hlo hhi hdemands
    have hle := hcovers s ((hrestricts s).2 ⟨hlo, hhi, hdemands⟩)
    have hmax := hinP.max_le haccepted
    lia
  · intro hwindows s hs
    obtain ⟨hlo, hhi, hdemands⟩ := (hrestricts s).1 hs
    have hle := hwindows s hlo hhi hdemands
    by_cases hbelow : s ≤ rP.lastStableSeqNum
    · lia
    -- the primary restricts the number itself
    have hin : s ≤ vmP.lowerBoundStableForPendingView + kWorkWindowSize := by lia
    obtain ⟨hlo', r, hr, hnull⟩ :=
      (hinP.restricts_iff haccepted fun _ _ => hverdict s hlo hhi).2 ⟨by lia, hin, hdemands⟩
    have hrange := (hinP.computed.spec haccepted).restricted_le s r hlo' hin hr hnull
    dsimp only [restrictionsHeld] at hrange
    have hnonneg := hinP.wf.kept.bound_nonneg
    lia

/-- What replica 1, the primary of view 1, gets: replica 2 reports a prepared PrePrepare at `s`. -/
def callsOfPrimary (s : SeqNum) : List ViewsCall :=
  [.exitFromCurrentView 0 0 [], .addViewChange ⟨0, 1, 0, []⟩,
    .addViewChange ⟨2, 1, 150, [⟨s, 2, 0, some ⟨0, [7]⟩⟩]⟩]

def prePrepareAt (s : SeqNum) : PrePrepareMsg := ⟨0, 0, s, .SLOW, false, 2, [⟨4, 1, false, [], 0⟩]⟩

/-- Replica 3 prepared the same PrePrepare and gets the messages of the primary. -/
def callsOfReplica (s : SeqNum) : List ViewsCall :=
  [.exitFromCurrentView 150 150 [⟨prePrepareAt s, true, some ⟨0, 0, s, [7]⟩⟩],
    .addViewChange ⟨0, 1, 0, []⟩, .addViewChange ⟨1, 1, 0, []⟩,
    .addViewChange ⟨2, 1, 150, [⟨s, 2, 0, some ⟨0, [7]⟩⟩]⟩,
    .addNewView ⟨1, 1, [(0, 5), (1, 5), (2, 5)]⟩]

/-- The messages with which both enter view 1. -/
def msgsOfView1 (s : SeqNum) : List ViewChangeMsg :=
  [⟨0, 1, 0, []⟩, ⟨1, 1, 0, []⟩, ⟨2, 1, 150, [⟨s, 2, 0, some ⟨0, [7]⟩⟩]⟩]

/-- The state in which the view is entered, and the entry. -/
def entryAfter (cfg : ReplicaConfig) (calls : List ViewsCall) (stable : SeqNum) :
    Option (ViewsManager × List PrePrepareMsg) :=
  (Machine.runSteps (fun u c => if decide (ViewsRun.Allowed cfg u c) then ViewsRun.next cfg u c
    else none) {} calls).bind fun run =>
      if run.curView ≤ 1 then
        (run.vm.tryToEnterView cfg 1 stable stable).toOption.bind fun p =>
          p.2.map fun pps => (p.1, pps)
      else none

theorem exists_entry (cfg : ReplicaConfig) (calls : List ViewsCall) (stable : SeqNum)
    (P : ViewsManager × List PrePrepareMsg → Prop) [DecidablePred P]
    (h : (entryAfter cfg calls stable).any (fun p => decide (P p)) = true) :
    ∃ vm pps run, entryAfter cfg calls stable = some (vm, pps) ∧ P (vm, pps) ∧
      ViewsRun.Reaches cfg {} run ∧ run.curView ≤ 1 ∧
      run.vm.tryToEnterView cfg 1 stable stable = .ok (vm, some pps) := by
  obtain ⟨⟨vm, pps⟩, hp, hP⟩ := (Option.any_eq_true _ _).1 h
  obtain ⟨run, hrun, hentry⟩ := Option.bind_eq_some_iff.1 hp
  by_cases hview : run.curView ≤ 1
  · rw [if_pos hview] at hentry
    obtain ⟨⟨vm', entered⟩, hcall, hsome⟩ := Option.bind_eq_some_iff.1 hentry
    obtain ⟨pps', rfl, hpair⟩ := Option.map_eq_some_iff.1 hsome
    obtain ⟨rfl, rfl⟩ := Prod.mk.inj hpair
    exact ⟨_, _, run, hp, of_decide_eq_true hP,
      Machine.reaches_of_tested_runSteps _ (fun _ _ => of_decide_eq_true) _ hrun, hview,
      eq_ok_of_toOption hcall⟩
  · rw [if_neg hview] at hentry
    simp at hentry

/-- All certificates of these runs verify. -/
theorem sameVerdict_of_verified {msgs : ReplicaId → Option ViewChangeMsg}
    (h : ∀ vc ∈ (fourReplicas 1).safetyLogic.messages msgs, ∀ e ∈ vc.elements,
      ∀ c ∈ e.preparedCertificate, c.certificateSig.length = 1) (s : SeqNum) :
    (fourReplicas 1).safetyLogic.SameVerdict ((fourReplicas 1).safetyLogic.elementsFor msgs s) := by
  have hverifies : ∀ x ∈ certificates
      ((fourReplicas 1).safetyLogic.elementsFor msgs s),
      (fourReplicas 1).safetyLogic.verifies x = true := by
    intro x hx
    obtain ⟨he, hc⟩ := mem_certificates.1 hx
    obtain ⟨vc, hvc, hat⟩ := List.mem_filterMap.1 he
    have hlength := h vc hvc x.e (List.mem_of_find?_eq_some hat) x.c hc
    simpa [verifies, ReplicaConfig.safetyLogic, fourReplicas] using hlength
  intro x hx y hy _
  rw [hverifies x hx, hverifies y hy]

/-- A number without an element is not asked for. -/
theorem eq_of_demands {msgs : ReplicaId → Option ViewChangeMsg} {s n : SeqNum}
    (hmsgs : (fourReplicas 1).safetyLogic.messages msgs = msgsOfView1 s)
    (h : (fourReplicas 1).safetyLogic.Demands msgs n) : n = s := by
  obtain ⟨d, hd, -⟩ := h
  by_contra hne
  have hnil : (fourReplicas 1).safetyLogic.elementsFor msgs n = [] := by
    rw [elementsFor, hmsgs]
    simp [msgsOfView1, elementAt, Ne.symm hne]
  rw [hnil] at hd
  exact absurd hd (by rw [show (fourReplicas 1).safetyLogic.selection [] = none from rfl]; simp)

/-- The number 200 lies in the window of the primary, which gets the PrePrepare from others. -/
theorem primaryLastUsed_covers_200 :
    ∃ vmP ppsP vmR ppsR, entryAfter (fourReplicas 1) (callsOfPrimary 200 ++
        [.tryToEnterView 1 0 0, .addPotentiallyMissingPP (prePrepareAt 200)]) 0 = some (vmP, ppsP) ∧
      entryAfter (fourReplicas 3) (callsOfReplica 200) 150 = some (vmR, ppsR) ∧
      vmR.Restricts 200 ∧
      ∀ s, vmR.Restricts s →
        s ≤ ((start () [] : ReplicaImp Unit).setCountersOfNewView ppsP).primaryLastUsedSeqNum := by
  obtain ⟨vmP, ppsP, runP, hP, hmsgsP, hreachesP, hviewP, hentersP⟩ :=
    exists_entry (fourReplicas 1) (callsOfPrimary 200 ++
      [.tryToEnterView 1 0 0, .addPotentiallyMissingPP (prePrepareAt 200)]) 0
      (fun p => (fourReplicas 1).safetyLogic.messages p.1.viewChangeMsgsOfPendingView =
        msgsOfView1 200) (by decide +kernel)
  obtain ⟨vmR, ppsR, runR, hR, ⟨hrestricts, hmsgsR⟩, hreachesR, hviewR, hentersR⟩ :=
    exists_entry (fourReplicas 3) (callsOfReplica 200) 150 (fun p => p.1.Restricts 200 ∧
      (fourReplicas 1).safetyLogic.messages p.1.viewChangeMsgsOfPendingView = msgsOfView1 200)
      (by decide +kernel)
  refine ⟨vmP, ppsP, vmR, ppsR, hP, hR, hrestricts, ?_⟩
  have hlogic : (fourReplicas 3).safetyLogic = (fourReplicas 1).safetyLogic := rfl
  have hset : (fourReplicas 1).safetyLogic.messages vmR.viewChangeMsgsOfPendingView =
      (fourReplicas 1).safetyLogic.messages vmP.viewChangeMsgsOfPendingView :=
    hmsgsR.trans hmsgsP.symm
  -- the stable point of the primary in the words of the theorem
  have hentersP : runP.vm.tryToEnterView (fourReplicas 1) 1
      (start () [] : ReplicaImp Unit).lastStableSeqNum 0 = .ok (vmP, some ppsP) := hentersP
  refine (primaryLastUsed_covers_iff hlogic hreachesP hreachesR hviewP hviewR hentersP hentersR
    hset ?_ ?_).2 ?_
  · unfold AcceptedMsgs
    rw [show (fourReplicas 1).safetyLogic.messages vmP.viewChangeMsgsOfPendingView = _ from hmsgsP]
    decide
  · intro s _ _
    apply sameVerdict_of_verified
    rw [show (fourReplicas 1).safetyLogic.messages vmP.viewChangeMsgsOfPendingView = _ from hmsgsP]
    decide
  · intro n _ _ hdemands
    obtain rfl := eq_of_demands hmsgsP hdemands
    have hnonneg := (hreachesP.enters hviewP hentersP).wf.kept.bound_nonneg
    unfold kWorkWindowSize
    lia

/-- The number 310 lies in the window of replica 3 only: the primary goes on after 300. -/
theorem primaryLastUsed_misses_310 :
    ∃ runP runR vmP ppsP vmR ppsR, ViewsRun.Reaches (fourReplicas 1) {} runP ∧
      ViewsRun.Reaches (fourReplicas 3) {} runR ∧ (fourReplicas 1).primaryOfView 1 = 1 ∧
      runP.vm.tryToEnterView (fourReplicas 1) 1 0 0 = .ok (vmP, some ppsP) ∧
      runR.vm.tryToEnterView (fourReplicas 3) 1 150 150 = .ok (vmR, some ppsR) ∧
      (fourReplicas 1).safetyLogic.messages vmP.viewChangeMsgsOfPendingView = msgsOfView1 310 ∧
      (fourReplicas 1).safetyLogic.messages vmR.viewChangeMsgsOfPendingView = msgsOfView1 310 ∧
      vmR.Restricts 310 ∧
      ((start () [] : ReplicaImp Unit).setCountersOfNewView ppsP).primaryLastUsedSeqNum = 300 := by
  obtain ⟨vmP, ppsP, runP, -, ⟨hused, hmsgsP⟩, hreachesP, -, hentersP⟩ :=
    exists_entry (fourReplicas 1) (callsOfPrimary 310) 0 (fun p =>
      ((start () [] : ReplicaImp Unit).setCountersOfNewView p.2).primaryLastUsedSeqNum = 300 ∧
        (fourReplicas 1).safetyLogic.messages p.1.viewChangeMsgsOfPendingView = msgsOfView1 310)
      (by decide +kernel)
  obtain ⟨vmR, ppsR, runR, -, ⟨hrestricts, hmsgsR⟩, hreachesR, -, hentersR⟩ :=
    exists_entry (fourReplicas 3) (callsOfReplica 310) 150 (fun p => p.1.Restricts 310 ∧
      (fourReplicas 1).safetyLogic.messages p.1.viewChangeMsgsOfPendingView = msgsOfView1 310)
      (by decide +kernel)
  exact ⟨runP, runR, vmP, ppsP, vmR, ppsR, hreachesP, hreachesR, rfl, hentersP, hentersR, hmsgsP,
    hmsgsR, hrestricts, hused⟩

end ReplicaImp

end ConcordBft
