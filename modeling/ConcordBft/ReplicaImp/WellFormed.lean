import ConcordBft.ReplicaImp.Effects

set_option autoImplicit false

/-! # The invariant of a replica

`Counters` relates the counters of a replica and its two windows, `Logs` says what the slots, the
checkpoints and the manager of the views hold. Every effect keeps both. -/

namespace ConcordBft.ReplicaImp

open Checked SequenceWithActiveWindow ViewsManager

variable {App : Type} {log : MainLog}

/-- The counters and the windows. -/
structure Counters (r : ReplicaImp App) : Prop where
  stable_mod : r.lastStableSeqNum % checkpointWindowSize = 0
  stable_nonneg : 0 ≤ r.lastStableSeqNum
  stable_le : r.lastStableSeqNum ≤ r.lastExecutedSeqNum
  exec_le : r.lastExecutedSeqNum ≤ r.lastStableSeqNum + kWorkWindowSize
  mainLog_begin : r.mainLog.beginningOfActiveWindow = r.lastStableSeqNum + 1
  checkpointsLog_begin : r.checkpointsLog.beginningOfActiveWindow = r.lastStableSeqNum
  strict_ge : r.lastStableSeqNum ≤ r.strictLowerBoundOfSeqNums
  transferred_le : r.maxSeqNumTransferredFromPrevViews ≤ r.lastStableSeqNum + kWorkWindowSize
  used_ge : r.lastStableSeqNum ≤ r.primaryLastUsedSeqNum
  used_le : r.primaryLastUsedSeqNum ≤ r.lastStableSeqNum + kWorkWindowSize

/-- The contents of the windows and of the manager of the views. -/
structure Logs (cfg : ReplicaConfig) (r : ReplicaImp App) : Prop where
  slots : ∀ s, r.mainLog.Holds s → (r.mainLog.lookup s).Inv cfg r.curView s
  fits : ∀ s pp, r.mainLog.Holds s → (r.mainLog.lookup s).prePrepareMsg = some pp →
    pp.DigestFits cfg
  /-- Outside of views the window is empty. -/
  inactive : r.currentViewIsActive = false → ∀ s, r.mainLog.Holds s → r.mainLog.lookup s = {}
  /-- The primary proposes no number twice. -/
  primary : r.currentViewIsActive = true → r.isCurrentPrimary cfg = true →
    r.strictLowerBoundOfSeqNums ≤ r.primaryLastUsedSeqNum ∧
    ∀ s, r.mainLog.Holds s → r.primaryLastUsedSeqNum < s →
      (r.mainLog.lookup s).prePrepareMsg = none
  /-- The numbers that were transferred from earlier views have PrePrepares. -/
  filled : r.currentViewIsActive = true → ∀ s, r.strictLowerBoundOfSeqNums < s →
    s ≤ r.maxSeqNumTransferredFromPrevViews → (r.mainLog.lookup s).prePrepareMsg.isSome = true
  /-- The replica has executed its own checkpoints. -/
  checkpoints : ∀ n, r.checkpointsLog.Holds n →
    ((r.checkpointsLog.lookup n).selfCheckpointMsg cfg.toReplicasInfo cfg.myId).isSome = true ∨
      (r.checkpointsLog.lookup n).executed = true → n ≤ r.lastExecutedSeqNum
  views : r.viewsManager.Wf cfg r.curView
  within : r.viewsManager.Within r.lastStableSeqNum
  own : ∀ m, r.viewsManager.getMyLatestViewChangeMsg cfg = some m →
    m.genReplicaId = cfg.myId ∧ SortedElements m.elements
  /-- The replica has left every view before the current one with a message. -/
  own_none : r.viewsManager.getMyLatestViewChangeMsg cfg = none ↔ r.curView = 0
  view_nonneg : 0 ≤ r.curView

structure WellFormed (cfg : ReplicaConfig) (r : ReplicaImp App) : Prop
    extends Counters r, Logs cfg r

theorem Logs.sorted {cfg : ReplicaConfig} {r : ReplicaImp App} (h : Logs cfg r) :
    SortedElements (r.viewsManager.prevElements cfg) := by
  unfold prevElements
  cases hm : r.viewsManager.getMyLatestViewChangeMsg cfg with
  | none => exact List.Pairwise.nil
  | some m => exact (h.own m hm).2

/-! ## The numbers of the windows -/

theorem mainLog_holds_iff {s : SeqNum} : log.Holds s ↔
    log.beginningOfActiveWindow ≤ s ∧ s < log.beginningOfActiveWindow + 300 := by
  rw [holds_iff]
  simp

/-- Each place of the ring belongs to a number of the window. -/
theorem mainLog_place (log : MainLog) (s : SeqNum) : ∃ m, log.Holds m ∧
    log.lookup s = log.lookup m ∧ ∀ info, log.set s info = log.set m info := by
  have hindex : index 300 1 s =
      index 300 1 (log.beginningOfActiveWindow + (s - log.beginningOfActiveWindow) % 300) := by
    simp only [index, numItems]
    lia
  refine ⟨log.beginningOfActiveWindow + (s - log.beginningOfActiveWindow) % 300, ?_, ?_, ?_⟩
  · rw [mainLog_holds_iff]
    lia
  · rw [lookup, hindex]
    rfl
  · intro info
    simp only [SequenceWithActiveWindow.set, hindex]

theorem checkpointsLog_holds_iff {log : CheckpointsLog} {n : SeqNum} : log.Holds n ↔
    n % 150 = 0 ∧ log.beginningOfActiveWindow ≤ n ∧ n < log.beginningOfActiveWindow + 450 :=
  holds_iff

variable {cfg : ReplicaConfig} {handler : RequestsHandler App} {M : Scope App}
  {r r' : ReplicaImp App} {s n : SeqNum} {pps : List PrePrepareMsg} {first last : SeqNum}
  {cps : CheckpointsLog} {vm : ViewsManager}

theorem Counters.holds (h : Counters r) (hlo : r.lastStableSeqNum < s)
    (hhi : s ≤ r.lastStableSeqNum + kWorkWindowSize) : r.mainLog.Holds s := by
  rw [mainLog_holds_iff, h.mainLog_begin]
  unfold kWorkWindowSize at hhi
  lia

theorem Counters.of_holds (h : Counters r) (hs : r.mainLog.Holds s) :
    r.lastStableSeqNum < s ∧ s ≤ r.lastStableSeqNum + kWorkWindowSize := by
  rw [mainLog_holds_iff, h.mainLog_begin] at hs
  unfold kWorkWindowSize
  lia

theorem Counters.holds_of_inside (_ : Counters r) (hs : r.mainLog.insideActiveWindow s = true) :
    r.mainLog.Holds s :=
  ⟨Int.emod_one s, hs⟩

theorem Counters.holds_checkpoint (h : Counters r) (hmod : n % checkpointWindowSize = 0)
    (hlo : r.lastStableSeqNum ≤ n) (hhi : n ≤ r.lastStableSeqNum + kWorkWindowSize) :
    r.checkpointsLog.Holds n := by
  rw [checkpointsLog_holds_iff, h.checkpointsLog_begin]
  unfold kWorkWindowSize at hhi
  exact ⟨hmod, hlo, by lia⟩

theorem Counters.holds_lastStable (h : Counters r) : r.checkpointsLog.Holds r.lastStableSeqNum :=
  h.holds_checkpoint h.stable_mod (le_refl _) (by unfold kWorkWindowSize; lia)

/-! ## Small effects -/

theorem lookup_setSlot (hs : r.mainLog.Holds n) (hm : r.mainLog.Holds s) (info : SeqNumInfo) :
    (r.setSlot n info).mainLog.lookup s = if s = n then info else r.mainLog.lookup s :=
  lookup_set hs hm info

theorem Logs.setSlot (h : Logs cfg r) {info : SeqNumInfo} (hactive : r.currentViewIsActive = true)
    (hs : r.mainLog.Holds n) (hinv : info.Inv cfg r.curView n)
    (hfits : ∀ pp, info.prePrepareMsg = some pp → pp.DigestFits cfg)
    (hpp : (r.mainLog.lookup n).prePrepareMsg.isSome = true → info.prePrepareMsg.isSome = true)
    (hprimary : r.isCurrentPrimary cfg = true → r.primaryLastUsedSeqNum < n →
      info.prePrepareMsg = none)
    (hwindow : ∀ s, r.strictLowerBoundOfSeqNums < s → s ≤ r.maxSeqNumTransferredFromPrevViews →
      r.mainLog.Holds s) :
    Logs cfg (r.setSlot n info) where
  slots := by
    intro s hs'
    rw [lookup_setSlot hs hs']
    split_ifs with heq
    · rw [heq]
      exact hinv
    · exact h.slots s hs'
  fits := by
    intro s pp hs' hsome
    rw [lookup_setSlot hs hs'] at hsome
    by_cases heq : s = n
    · rw [if_pos heq] at hsome
      exact hfits pp hsome
    · rw [if_neg heq] at hsome
      exact h.fits s pp hs' hsome
  inactive := fun hno => absurd (hactive.symm.trans hno) (by simp)
  primary := by
    intro _ hp
    refine ⟨(h.primary hactive hp).1, fun s hs' hlt => ?_⟩
    rw [lookup_setSlot hs hs']
    split_ifs with heq
    · exact hprimary hp (heq ▸ hlt)
    · exact (h.primary hactive hp).2 s hs' hlt
  filled := by
    intro _ s hlo hhi
    rw [lookup_setSlot hs (hwindow s hlo hhi)]
    split_ifs with heq
    · exact hpp (heq ▸ h.filled hactive s hlo hhi)
    · exact h.filled hactive s hlo hhi
  checkpoints := h.checkpoints
  views := h.views
  within := h.within
  own := h.own
  own_none := h.own_none
  view_nonneg := h.view_nonneg

theorem Counters.holds_transferred (h : Counters r) (hlo : r.strictLowerBoundOfSeqNums < s)
    (hhi : s ≤ r.maxSeqNumTransferredFromPrevViews) : r.mainLog.Holds s :=
  h.holds (lt_of_le_of_lt h.strict_ge hlo) (le_trans hhi h.transferred_le)

theorem Logs.setCheckpoint (h : Logs cfg r) {info : CheckpointInfo} (hn : r.checkpointsLog.Holds n)
    (hexec : (info.selfCheckpointMsg cfg.toReplicasInfo cfg.myId).isSome = true ∨
      info.executed = true → n ≤ r.lastExecutedSeqNum) :
    Logs cfg (r.setCheckpoint n info) :=
  { h with
    checkpoints := by
      intro k hk
      have hlook : (r.setCheckpoint n info).checkpointsLog.lookup k =
          if k = n then info else r.checkpointsLog.lookup k := lookup_set hn hk info
      rw [hlook]
      split_ifs with heq
      · rw [heq]
        exact hexec
      · exact h.checkpoints k hk }

/-! ## The stable point -/

theorem Logs.advanceTo (h : Logs cfg r)
    (hbegin : r.mainLog.beginningOfActiveWindow = r.lastStableSeqNum + 1)
    (hcbegin : r.checkpointsLog.beginningOfActiveWindow = r.lastStableSeqNum)
    (htrans : r.maxSeqNumTransferredFromPrevViews ≤ r.lastStableSeqNum + kWorkWindowSize)
    (hn : r.lastStableSeqNum ≤ n) (ha : Advanced r n log cps) :
    Logs cfg (r.advanceTo n log cps) := by
  -- a number that the new window holds was held before, or its slot is empty
  have hlookup : ∀ s, log.Holds s → (r.mainLog.Holds s ∧ log.lookup s = r.mainLog.lookup s) ∨
      log.lookup s = {} := by
    intro s hs
    have hlook := ha.mainLog_lookup s hs
    rw [mainLog_holds_iff, ha.mainLog_begin] at hs
    by_cases hlt : s < r.mainLog.beginningOfActiveWindow + 300
    · rw [if_pos hlt] at hlook
      refine Or.inl ⟨mainLog_holds_iff.2 ⟨?_, hlt⟩, hlook⟩
      lia
    · rw [if_neg hlt] at hlook
      exact Or.inr hlook
  exact { h with
    slots := by
      intro s hs
      rcases hlookup s hs with ⟨hs', heq⟩ | heq
      · show (log.lookup s).Inv cfg r.curView s
        rw [heq]
        exact h.slots s hs'
      · show (log.lookup s).Inv cfg r.curView s
        rw [heq]
        exact SeqNumInfo.inv_empty
    fits := by
      intro s pp hs hpp
      have hpp' : (log.lookup s).prePrepareMsg = some pp := hpp
      rcases hlookup s hs with ⟨hs', heq⟩ | heq
      · exact h.fits s pp hs' (heq ▸ hpp')
      · rw [heq] at hpp'
        simp at hpp'
    inactive := by
      intro hno s hs
      rcases hlookup s hs with ⟨hs', heq⟩ | heq
      · exact heq.trans (h.inactive hno s hs')
      · exact heq
    primary := by
      intro hactive hp
      obtain ⟨hle, hnone⟩ := h.primary hactive hp
      refine ⟨?_, fun s hs hlt => ?_⟩
      · show max r.strictLowerBoundOfSeqNums n ≤ max r.primaryLastUsedSeqNum n
        lia
      · show (log.lookup s).prePrepareMsg = none
        have hlt' : max r.primaryLastUsedSeqNum n < s := hlt
        rcases hlookup s hs with ⟨hs', heq⟩ | heq
        · rw [heq]
          exact hnone s hs' (by lia)
        · rw [heq]
    filled := by
      intro hactive s hlo hhi
      have hlo' : max r.strictLowerBoundOfSeqNums n < s := hlo
      have hhi' : s ≤ r.maxSeqNumTransferredFromPrevViews := hhi
      show (log.lookup s).prePrepareMsg.isSome = true
      unfold kWorkWindowSize at htrans
      have hs : log.Holds s := by
        rw [mainLog_holds_iff, ha.mainLog_begin]
        lia
      rw [ha.mainLog_lookup s hs, if_pos (by rw [hbegin]; lia)]
      exact h.filled hactive s (by lia) hhi
    checkpoints := by
      intro k hk hexec
      have hlook := ha.checkpointsLog_lookup k hk
      have hk' : cps.Holds k := hk
      rw [checkpointsLog_holds_iff, ha.checkpointsLog_begin] at hk'
      have hexec' : ((cps.lookup k).selfCheckpointMsg cfg.toReplicasInfo cfg.myId).isSome = true ∨
        (cps.lookup k).executed = true := hexec
      rw [hlook] at hexec'
      by_cases hlt : k < r.checkpointsLog.beginningOfActiveWindow + 450
      · rw [if_pos hlt] at hexec'
        refine h.checkpoints k (checkpointsLog_holds_iff.2 ⟨hk'.1, ?_, hlt⟩) hexec'
        lia
      · rw [if_neg hlt] at hexec'
        rcases hexec' with hno | hno
        · exact absurd hno (by simp [CheckpointInfo.selfCheckpointMsg, MsgsCertificate.selfMsg])
        · simp at hno
    within := fun hstat => le_trans (h.within hstat) hn }

theorem Counters.advanceTo (h : Counters r) (hmod : n % checkpointWindowSize = 0)
    (hlt : r.lastStableSeqNum < n) (hle : n ≤ r.lastExecutedSeqNum) (ha : Advanced r n log cps) :
    Counters (r.advanceTo n log cps) := by
  obtain ⟨-, hnonneg, -, hexec, -, -, hstrict, htrans, hused, hused'⟩ := h
  unfold kWorkWindowSize at hexec htrans hused'
  refine ⟨hmod, ?_, hle, ?_, ha.mainLog_begin, ha.checkpointsLog_begin, ?_, ?_, ?_, ?_⟩ <;>
    simp only [ReplicaImp.advanceTo, kWorkWindowSize] <;> lia

theorem Counters.jump (h : Counters r) {cm : ClientsManager} (hmod : n % checkpointWindowSize = 0)
    (hgt : r.lastStableSeqNum + kWorkWindowSize < n)
    (ha : Advanced (r.adopt n cm) (n - kWorkWindowSize) log cps) :
    Counters ((r.adopt n cm).advanceTo (n - kWorkWindowSize) log cps) := by
  obtain ⟨-, hnonneg, -, hexec, -, -, hstrict, htrans, hused, hused'⟩ := h
  unfold kWorkWindowSize checkpointWindowSize at *
  refine ⟨?_, ?_, ?_, ?_, ha.mainLog_begin, ha.checkpointsLog_begin, ?_, ?_, ?_, ?_⟩ <;>
    simp only [ReplicaImp.advanceTo, ReplicaImp.adopt, kWorkWindowSize, checkpointWindowSize] <;> lia

theorem Logs.adopt (h : Logs cfg r) (hle : r.lastExecutedSeqNum ≤ n) (cm : ClientsManager) :
    Logs cfg (r.adopt n cm) :=
  { h with
    checkpoints := fun k hk hexec => le_trans (h.checkpoints k hk hexec) hle }

/-! ## Entering a view -/

theorem head?_seqNums (h : first ≤ last) : (seqNums first last).head? = some first := by
  obtain ⟨k, hk⟩ : ∃ k, (last - first + 1).toNat = k + 1 := ⟨(last - first).toNat, by lia⟩
  simp [seqNums, hk, List.range_succ_eq_map]

theorem getLast?_seqNums (h : first ≤ last) : (seqNums first last).getLast? = some last := by
  obtain ⟨k, hk⟩ : ∃ k, (last - first + 1).toNat = k + 1 := ⟨(last - first).toNat, by lia⟩
  simp only [seqNums, hk, List.range_succ, List.map_append, List.map_cons, List.map_nil,
    List.getLast?_append, List.getLast?_singleton, Option.some_or, Option.some.injEq]
  lia

/-- A view is entered with PrePrepares for all numbers from the stable point to the last restricted
    one. -/
theorem numbers_of_entry {v : ViewNum} {lastStable : SeqNum} {vm vm' : ViewsManager}
    (h : ViewsManager.Enters cfg v lastStable vm vm' pps) :
    (pps = [] ∧ (vm'.minRestrictionOfPendingView = 0 ∨
      vm'.maxRestrictionOfPendingView ≤ lastStable)) ∨
    (lastStable < vm'.maxRestrictionOfPendingView ∧
      vm'.maxRestrictionOfPendingView ≤ lastStable + kWorkWindowSize ∧
      pps.map (·.seqNumber) = seqNums (lastStable + 1) vm'.maxRestrictionOfPendingView ∧
      firstPPSeq pps = lastStable + 1 ∧ lastPPSeq pps = vm'.maxRestrictionOfPendingView) := by
  obtain ⟨arr, -, hout⟩ := h.computed
  have hin := ((ViewChangeSafetyLogic.computeRestrictions_asserts cfg.safetyLogic _ _ arr).of_ok
    hout).1.2
  have hnumbers := h.seqNumbers
  have hle := h.bound_le
  by_cases hmin : vm'.minRestrictionOfPendingView = 0
  · rw [if_pos hmin] at hnumbers
    exact Or.inl ⟨List.map_eq_nil_iff.1 hnumbers, Or.inl hmin⟩
  rw [if_neg hmin] at hnumbers
  have hsome : cfg.safetyLogic.createIterators vm'.viewChangeMsgsOfPendingView
      (vm'.lowerBoundStableForPendingView + 1) ≠ [] := by
    intro hnil
    exact hmin (hin.none fun hne => hne hnil).1
  obtain ⟨hlo, hhi⟩ := hin.some hsome
  have hlo' : vm'.minRestrictionOfPendingView = vm'.lowerBoundStableForPendingView + 1 := hlo
  have hhi' : vm'.maxRestrictionOfPendingView ≤
      vm'.lowerBoundStableForPendingView + kWorkWindowSize := by
    rcases hhi with hhi | hhi
    · have hhi' : vm'.maxRestrictionOfPendingView = vm'.lowerBoundStableForPendingView +
        kWorkWindowSize - checkpointWindowSize := hhi
      unfold checkpointWindowSize at hhi'
      lia
    · exact le_of_eq hhi
  by_cases hempty : vm'.maxRestrictionOfPendingView ≤ lastStable
  · refine Or.inl ⟨List.map_eq_nil_iff.1 (hnumbers.trans ?_), Or.inr hempty⟩
    rw [← List.length_eq_zero_iff, length_seqNums]
    lia
  · have hfirst : min (vm'.maxRestrictionOfPendingView + 1)
        (max vm'.minRestrictionOfPendingView (lastStable + 1)) = lastStable + 1 := by lia
    rw [hfirst] at hnumbers
    refine Or.inr ⟨by lia, by lia, hnumbers, ?_, ?_⟩
    · rw [firstPPSeq, ← List.head?_map, hnumbers, head?_seqNums (by lia)]
      rfl
    · rw [lastPPSeq, ← List.getLast?_map, hnumbers, getLast?_seqNums (by lia)]
      rfl

theorem counters_of_entry
    (h : ViewsManager.Enters cfg r.curView r.lastStableSeqNum r.viewsManager vm pps) :
    ∃ last, r.setCountersOfNewView pps = { r with
        primaryLastUsedSeqNum := last
        strictLowerBoundOfSeqNums := r.lastStableSeqNum
        maxSeqNumTransferredFromPrevViews := last } ∧
      r.lastStableSeqNum ≤ last ∧ last ≤ r.lastStableSeqNum + kWorkWindowSize ∧
      pps.map (·.seqNumber) = seqNums (r.lastStableSeqNum + 1) last ∧
      (last = r.lastStableSeqNum ∧ (vm.minRestrictionOfPendingView = 0 ∨
          vm.maxRestrictionOfPendingView ≤ r.lastStableSeqNum) ∨
        last = vm.maxRestrictionOfPendingView) := by
  rcases numbers_of_entry h with ⟨rfl, hmax⟩ | ⟨hlt, hle, hnumbers, hfirst, hlast⟩
  · refine ⟨r.lastStableSeqNum, rfl, le_refl _, by unfold kWorkWindowSize; lia, ?_,
      Or.inl ⟨rfl, hmax⟩⟩
    rw [List.map_nil, eq_comm, ← List.length_eq_zero_iff, length_seqNums]
    lia
  · refine ⟨vm.maxRestrictionOfPendingView, ?_, by lia, hle, hnumbers, Or.inr rfl⟩
    have hne : pps ≠ [] := by
      rintro rfl
      have hlen := congrArg List.length hnumbers
      rw [List.map_nil, List.length_nil, length_seqNums] at hlen
      lia
    unfold setCountersOfNewView
    rw [if_neg (by simp [hne]), hfirst, hlast]
    simp

theorem mem_of_number (h : pps.map (·.seqNumber) = seqNums first last) (hs : first ≤ s ∧ s ≤ last) :
    ∃ pp ∈ pps, pp.seqNumber = s := by
  have hmem : s ∈ pps.map (·.seqNumber) := by
    rw [h]
    exact mem_seqNums.2 hs
  exact List.mem_map.1 hmem

theorem number_of_mem (h : pps.map (·.seqNumber) = seqNums first last) {pp : PrePrepareMsg}
    (hpp : pp ∈ pps) : first ≤ pp.seqNumber ∧ pp.seqNumber ≤ last := by
  have hmem : pp.seqNumber ∈ pps.map (·.seqNumber) := List.mem_map_of_mem hpp
  rw [h] at hmem
  exact mem_seqNums.1 hmem

section

variable (hw : WellFormed cfg r)
include hw

theorem Entered.wellFormed {new : List Action} (h : Entered cfg r vm pps log new) :
    WellFormed cfg (r.enterWith vm pps log new) := by
  obtain ⟨last, hcounters, hlo, hhi, hnumbers, -⟩ := counters_of_entry h.enters
  have hbefore : r.currentViewIsActive = false :=
    viewIsActive_eq_false h.enters.before.1 r.curView
  have hempty := hw.inactive hbefore
  have hholds : ∀ s, log.Holds s ↔ r.mainLog.Holds s := by
    intro s
    rw [mainLog_holds_iff, mainLog_holds_iff, h.log_begin]
  -- a slot has the PrePrepare of the restrictions, or it is empty
  have hslot : ∀ s, log.Holds s → (∃ pp ∈ pps, pp.seqNumber = s ∧
      (log.lookup s).prePrepareMsg = some pp ∧ (log.lookup s).Inv cfg r.curView s) ∨
      ((∀ pp ∈ pps, pp.seqNumber ≠ s) ∧ log.lookup s = {}) := by
    intro s hs
    have hs' := (hholds s).1 hs
    exact (h.slots s hs').imp_right fun hno => ⟨hno.1, hno.2.trans (hempty s hs')⟩
  unfold enterWith
  rw [hcounters]
  refine { hw with
    mainLog_begin := h.log_begin.trans hw.mainLog_begin
    strict_ge := le_refl _
    transferred_le := hhi
    used_ge := hlo
    used_le := hhi
    slots := ?_, fits := ?_, inactive := ?_, primary := ?_, filled := ?_
    views := h.enters.wf
    within := fun hno => absurd (h.enters.after.1.symm.trans hno) (by simp)
    own := ?_, own_none := ?_ }
  · intro s hs
    show (log.lookup s).Inv cfg r.curView s
    rcases hslot s hs with ⟨pp, -, -, -, hinv⟩ | ⟨-, heq⟩
    · exact hinv
    · rw [heq]
      exact SeqNumInfo.inv_empty
  · intro s pp hs hpp
    have hpp' : (log.lookup s).prePrepareMsg = some pp := hpp
    rcases hslot s hs with ⟨pp', hmem, -, hsome, -⟩ | ⟨-, heq⟩
    · obtain rfl := Option.some.inj (hsome.symm.trans hpp')
      exact (h.enters.prePrepares pp' hmem).digest_fits
    · rw [heq] at hpp'
      simp at hpp'
  · intro hno
    have hyes : vm.viewIsActive r.curView = true := by
      simp [viewIsActive, inView, h.enters.after.1, h.enters.after.2.1]
    exact absurd (hyes.symm.trans hno) (by simp)
  · refine fun _ _ => ⟨hlo, fun s hs hlt => ?_⟩
    show (log.lookup s).prePrepareMsg = none
    rcases hslot s hs with ⟨pp, hmem, rfl, -, -⟩ | ⟨-, heq⟩
    · have hle := (number_of_mem hnumbers hmem).2
      lia
    · rw [heq]
  · intro _ s hls hle
    have hls' : r.lastStableSeqNum < s := hls
    have hle' : s ≤ last := hle
    show (log.lookup s).prePrepareMsg.isSome = true
    obtain ⟨pp, hmem, hseq⟩ := mem_of_number hnumbers (s := s) ⟨by lia, hle'⟩
    rcases hslot s ((hholds s).2 (hw.holds hls' (le_trans hle' hhi))) with
      ⟨pp', -, -, hsome, -⟩ | ⟨hno, -⟩
    · rw [hsome]
      rfl
    · exact absurd hseq (hno pp hmem)
  · intro m hm
    exact hw.own m (h.enters.own.symm.trans hm)
  · show vm.getMyLatestViewChangeMsg cfg = none ↔ r.curView = 0
    rw [h.enters.own]
    exact hw.own_none

/-! ## Leaving a view -/

theorem Left.wellFormed {v : ViewNum} {m : ViewChangeMsg} (h : Left cfg r v m vm log) :
    WellFormed cfg ({ r with viewsManager := vm, curView := v, mainLog := log }.sendToAllOtherReplicas
      (.viewChange m)) := by
  have hinactive : vm.viewIsActive v = false := viewIsActive_eq_false h.inactive v
  exact { hw with
    mainLog_begin := h.log_begin.trans hw.mainLog_begin
    slots := by
      intro s hs
      show (log.lookup s).Inv cfg v s
      rw [h.log_empty s hs]
      exact SeqNumInfo.inv_empty
    fits := by
      intro s pp hs hpp
      have hpp' : (log.lookup s).prePrepareMsg = some pp := hpp
      rw [h.log_empty s hs] at hpp'
      simp at hpp'
    inactive := fun _ s hs => h.log_empty s hs
    primary := fun hyes => absurd (hinactive.symm.trans hyes) (by simp)
    filled := fun hyes => absurd (hinactive.symm.trans hyes) (by simp)
    views := h.wf
    own := by
      intro m' hm'
      obtain rfl := Option.some.inj (h.own.symm.trans hm')
      exact ⟨h.sender, h.sorted⟩
    within := h.within
    own_none := by
      have hlt := h.view_lt
      have hpos := hw.view_nonneg
      refine ⟨fun hno => absurd (h.own.symm.trans hno) (by simp), fun hzero => ?_⟩
      have hzero' : v = 0 := hzero
      lia
    view_nonneg := le_trans hw.view_nonneg (le_of_lt h.view_lt) }

/-! ## All effects -/

theorem Effect.wellFormed (h : Effect cfg handler M r r') : WellFormed cfg r' := by
  cases h with
  | record a _ => exact { hw with }
  | slot s info hactive hs hinv hkeeps _ =>
    have hlogs := hw.toLogs.setSlot hactive hs hinv
      (fun pp hpp => hw.fits s pp hs (hkeeps.pp_eq ▸ hpp))
      (fun hsome => hkeeps.pp_eq ▸ hsome)
      (fun hp hlt => hkeeps.pp_eq.trans ((hw.primary hactive hp).2 s hs hlt))
      (fun _ hlo hhi => hw.holds_transferred hlo hhi)
    exact { hw.toCounters with toLogs := hlogs }
  | accept s info pp hactive hs hstrict hinv hnone hpp hfits _ hprimary =>
    have hlogs := hw.toLogs.setSlot hactive hs hinv
      (fun pp' hpp' => Option.some.inj (hpp.symm.trans hpp') ▸ hfits)
      (fun _ => by rw [hpp]; rfl)
      (fun hp hlt => absurd (hprimary hp) (not_le.2 hlt))
      (fun _ hlo hhi => hw.holds_transferred hlo hhi)
    exact { hw.toCounters, hlogs with }
  | checkpoint n info _ hn hexec =>
    exact { hw.toCounters with toLogs := hw.toLogs.setCheckpoint hn hexec }
  | stable n log cps _ hmod hlt hle ha =>
    exact { hw.toCounters.advanceTo hmod hlt hle ha with
      toLogs := hw.toLogs.advanceTo hw.mainLog_begin hw.checkpointsLog_begin hw.transferred_le
        (le_of_lt hlt) ha }
  | execute pp x replies _ hactive _ hs hready hexec =>
    have hle := (hw.of_holds hs).2
    exact { hw with
      stable_le := le_trans hw.stable_le (le_of_lt (Int.lt_succ _))
      exec_le := hle
      checkpoints := fun n hn hsome =>
        le_trans (hw.checkpoints n hn hsome) (le_of_lt (Int.lt_succ _)) }
  | clients cm _ _ => exact { hw with }
  | use n hge hle =>
    exact { hw with
      used_ge := le_trans hw.used_ge hge
      used_le := hle
      primary := fun hactive hp =>
        ⟨le_trans (hw.primary hactive hp).1 hge, fun s hs hlt =>
          (hw.primary hactive hp).2 s hs (lt_of_le_of_lt hge hlt)⟩ }
  | bookkeeping => exact { hw with }
  | views vm _ hwf hquiet hwithin =>
    have hactive : vm.viewIsActive r.curView = r.currentViewIsActive := hquiet.active r.curView
    exact { hw with
      inactive := fun hno => hw.inactive (hactive.symm.trans hno)
      primary := fun hyes => hw.primary (hactive.symm.trans hyes)
      filled := fun hyes => hw.filled (hactive.symm.trans hyes)
      views := hwf
      within := hwithin
      own := fun m hm => hw.own m (hquiet.own.symm.trans hm)
      own_none := by
        show vm.getMyLatestViewChangeMsg cfg = none ↔ r.curView = 0
        rw [hquiet.own]
        exact hw.own_none }
  | fetch app pages _ _ => exact { hw with }
  | transfer n cm _ _ hlt _ hle =>
    exact { hw.toLogs.adopt (le_of_lt hlt) cm, hw.toCounters with
      stable_le := le_trans hw.stable_le (le_of_lt hlt)
      exec_le := hle }
  | jump n cm log cps _ _ hmod hlt _ hgt ha =>
    have hle : r.lastStableSeqNum ≤ n - kWorkWindowSize := by lia
    exact { hw.toCounters.jump hmod hgt ha with
      toLogs := (hw.toLogs.adopt (le_of_lt hlt) cm).advanceTo hw.mainLog_begin
        hw.checkpointsLog_begin hw.transferred_le hle ha }
  | leave v m vm log _ h | enter vm pps log new _ _ h => exact h.wellFormed hw

theorem Effects.wellFormed (h : Effects cfg handler M r r') : WellFormed cfg r' :=
  h.invariant (fun _ _ hw he => he.wellFormed hw) hw

end

/-! ## Progress -/

/-- The counters that only grow, and the history. -/
structure Progress (r r' : ReplicaImp App) : Prop where
  stable_le : r.lastStableSeqNum ≤ r'.lastStableSeqNum
  executed_le : r.lastExecutedSeqNum ≤ r'.lastExecutedSeqNum
  view_le : r.curView ≤ r'.curView
  trace : ∃ new, r'.trace = new ++ r.trace

theorem Progress.refl (r : ReplicaImp App) : Progress r r :=
  ⟨le_refl _, le_refl _, le_refl _, [], rfl⟩

theorem Progress.trans {r₁ r₂ : ReplicaImp App} (h : Progress r r₁) (h' : Progress r₁ r₂) :
    Progress r r₂ := by
  obtain ⟨new, hnew⟩ := h.trace
  obtain ⟨new', hnew'⟩ := h'.trace
  exact ⟨le_trans h.stable_le h'.stable_le, le_trans h.executed_le h'.executed_le,
    le_trans h.view_le h'.view_le, new' ++ new, by rw [hnew', hnew, List.append_assoc]⟩

theorem Progress.mem (h : Progress r r') {a : Action} (ha : a ∈ r.trace) : a ∈ r'.trace := by
  obtain ⟨new, hnew⟩ := h.trace
  rw [hnew]
  exact List.mem_append_right new ha

theorem Effect.progress (h : Effect cfg handler M r r') : Progress r r' := by
  cases h with
  | record a _ => exact ⟨le_refl _, le_refl _, le_refl _, [a], rfl⟩
  | accept => exact ⟨le_refl _, le_refl _, le_refl _, [_], rfl⟩
  | stable n log cps _ _ hlt _ _ =>
    exact ⟨le_of_lt hlt, le_refl _, le_refl _, [], rfl⟩
  | execute =>
    exact ⟨le_refl _, le_of_lt (Int.lt_succ _), le_refl _, [_], rfl⟩
  | transfer n cm _ _ hlt _ _ =>
    exact ⟨le_refl _, le_of_lt hlt, le_refl _, [], rfl⟩
  | jump n cm log cps _ _ _ hlt _ hgt _ =>
    refine ⟨?_, le_of_lt hlt, le_refl _, [], rfl⟩
    show r.lastStableSeqNum ≤ n - kWorkWindowSize
    lia
  | leave v m vm log _ h => exact ⟨le_refl _, le_refl _, le_of_lt h.view_lt, [_], rfl⟩
  | enter vm pps log new _ _ _ =>
    unfold enterWith setCountersOfNewView
    split_ifs <;> exact ⟨le_refl _, le_refl _, le_refl _, new, rfl⟩
  | _ => exact ⟨le_refl _, le_refl _, le_refl _, [], rfl⟩

theorem Effects.progress (h : Effects cfg handler M r r') : Progress r r' :=
  h.invariant (I := Progress r) (fun _ _ hp he => hp.trans he.progress) (Progress.refl r)

end ConcordBft.ReplicaImp
