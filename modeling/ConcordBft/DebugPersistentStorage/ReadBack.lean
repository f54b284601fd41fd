import ConcordBft.DebugPersistentStorage
import ConcordBft.Lib.Cells

set_option autoImplicit false

/-! # Reading back what was written

The storage as a store of cells: every setter writes one cell, moving the windows resets the cells of
the sequence numbers that are not in them, and every getter reads the cell of its setter, with one
exception. -/

namespace ConcordBft

open Checked PersistentStorage SequenceWithActiveWindow Cells

namespace DebugPersistentStorage

/-! ## The abstract store -/

/-- What can be set and read back. -/
inductive Cell where
  | config
  | fetchingState
  | lastExecutedSeqNum
  | primaryLastUsedSeqNum
  | strictLowerBoundOfSeqNums
  | lastViewThatTransferredSeqNumbersFullyExecuted
  | descriptorOfLastExitFromView
  | descriptorOfLastNewView
  | descriptorOfLastExecution
  | lastStableSeqNum
  | prePrepareMsg (s : SeqNum)
  | slowStarted (s : SeqNum)
  | fullCommitProofMsg (s : SeqNum)
  | forceCompleted (s : SeqNum)
  | prepareFullMsg (s : SeqNum)
  | commitFullMsg (s : SeqNum)
  | checkpointMsg (s : SeqNum)
  | completedMark (s : SeqNum)
deriving DecidableEq, Repr

variable {Config : Type}

/-- The type of a cell. -/
@[reducible] def Cell.Value (Config : Type) : Cell → Type
  | .config => Option Config
  | .fetchingState => Bool
  | .lastExecutedSeqNum => SeqNum
  | .primaryLastUsedSeqNum => SeqNum
  | .strictLowerBoundOfSeqNums => SeqNum
  | .lastViewThatTransferredSeqNumbersFullyExecuted => ViewNum
  | .descriptorOfLastExitFromView => Option DescriptorOfLastExitFromView
  | .descriptorOfLastNewView => Option DescriptorOfLastNewView
  | .descriptorOfLastExecution => Option DescriptorOfLastExecution
  | .lastStableSeqNum => SeqNum
  | .prePrepareMsg _ => Option PrePrepareMsg
  | .slowStarted _ => Bool
  | .fullCommitProofMsg _ => Option FullCommitProofMsg
  | .forceCompleted _ => Bool
  | .prepareFullMsg _ => Option SignedShareFull
  | .commitFullMsg _ => Option SignedShareFull
  | .checkpointMsg _ => Option CheckpointMsg
  | .completedMark _ => Bool

/-- Numbers start at zero, flags are not set and no message or descriptor is there. -/
def Cell.initial (Config : Type) : (c : Cell) → c.Value Config
  | .config => none
  | .fetchingState => false
  | .lastExecutedSeqNum => (0 : Int)
  | .primaryLastUsedSeqNum => (0 : Int)
  | .strictLowerBoundOfSeqNums => (0 : Int)
  | .lastViewThatTransferredSeqNumbersFullyExecuted => (0 : Int)
  | .descriptorOfLastExitFromView => none
  | .descriptorOfLastNewView => none
  | .descriptorOfLastExecution => none
  | .lastStableSeqNum => (0 : Int)
  | .prePrepareMsg _ => none
  | .slowStarted _ => false
  | .fullCommitProofMsg _ => none
  | .forceCompleted _ => false
  | .prepareFullMsg _ => none
  | .commitFullMsg _ => none
  | .checkpointMsg _ => none
  | .completedMark _ => false

/-- The sequence number of a cell of the window of sequence numbers. -/
def Cell.seqNum? : Cell → Option SeqNum
  | .prePrepareMsg s | .slowStarted s | .fullCommitProofMsg s | .forceCompleted s
  | .prepareFullMsg s | .commitFullMsg s => some s
  | _ => none

/-- The sequence number of a cell of the window of checkpoints. -/
def Cell.checkpoint? : Cell → Option SeqNum
  | .checkpointMsg s | .completedMark s => some s
  | _ => none

/-- The cells outside of the windows above the stable sequence number `s`. -/
def Cell.outside (s : SeqNum) (c : Cell) : Bool :=
  c.seqNum?.any (fun n => !decide (s + 1 ≤ n ∧ n < s + 1 + (300 : ℕ))) ||
    c.checkpoint?.any fun n => !decide (s ≤ n ∧ n < s + (450 : ℕ))

/-! ## The calls of a replica -/

/-- The calls that may change the storage. -/
inductive Call (Config : Type) where
  | beginWriteTran
  | endWriteTran
  | setReplicaConfig (config : Config)
  | setFetchingState (f : Bool)
  | setLastExecutedSeqNum (s : SeqNum)
  | setPrimaryLastUsedSeqNum (s : SeqNum)
  | setStrictLowerBoundOfSeqNums (s : SeqNum)
  | setLastViewThatTransferredSeqNumbersFullyExecuted (v : ViewNum)
  | setDescriptorOfLastExitFromView (d : DescriptorOfLastExitFromView)
  | setDescriptorOfLastNewView (d : DescriptorOfLastNewView)
  | setDescriptorOfLastExecution (d : DescriptorOfLastExecution)
  | setLastStableSeqNum (s : SeqNum)
  | clearSeqNumWindow
  | setPrePrepareMsgInSeqNumWindow (s : SeqNum) (m : PrePrepareMsg)
  | setSlowStartedInSeqNumWindow (s : SeqNum) (slowStarted : Bool)
  | setFullCommitProofMsgInSeqNumWindow (s : SeqNum) (m : FullCommitProofMsg)
  | setForceCompletedInSeqNumWindow (s : SeqNum) (forceCompleted : Bool)
  | setPrepareFullMsgInSeqNumWindow (s : SeqNum) (m : SignedShareFull)
  | setCommitFullMsgInSeqNumWindow (s : SeqNum) (m : SignedShareFull)
  | setCheckpointMsgInCheckWindow (s : SeqNum) (m : CheckpointMsg)
  | setCompletedMarkInCheckWindow (s : SeqNum) (f : Bool)

variable (cfg : StorageConfig) (st : DebugPersistentStorage Config)

/-- The code of a call. -/
def step : Call Config → Except Failure (DebugPersistentStorage Config)
  | .beginWriteTran => st.beginWriteTran
  | .endWriteTran => st.endWriteTran
  | .setReplicaConfig config => st.setReplicaConfig config
  | .setFetchingState f => st.setFetchingState f
  | .setLastExecutedSeqNum s => st.setLastExecutedSeqNum s
  | .setPrimaryLastUsedSeqNum s => st.setPrimaryLastUsedSeqNum s
  | .setStrictLowerBoundOfSeqNums s => st.setStrictLowerBoundOfSeqNums s
  | .setLastViewThatTransferredSeqNumbersFullyExecuted v =>
    st.setLastViewThatTransferredSeqNumbersFullyExecuted v
  | .setDescriptorOfLastExitFromView d => st.setDescriptorOfLastExitFromView d
  | .setDescriptorOfLastNewView d => st.setDescriptorOfLastNewView cfg d
  | .setDescriptorOfLastExecution d => st.setDescriptorOfLastExecution d
  | .setLastStableSeqNum s => st.setLastStableSeqNum s
  | .clearSeqNumWindow => st.clearSeqNumWindow
  | .setPrePrepareMsgInSeqNumWindow s m => st.setPrePrepareMsgInSeqNumWindow s m
  | .setSlowStartedInSeqNumWindow s b => st.setSlowStartedInSeqNumWindow s b
  | .setFullCommitProofMsgInSeqNumWindow s m => st.setFullCommitProofMsgInSeqNumWindow s m
  | .setForceCompletedInSeqNumWindow s b => st.setForceCompletedInSeqNumWindow s b
  | .setPrepareFullMsgInSeqNumWindow s m => st.setPrepareFullMsgInSeqNumWindow s m
  | .setCommitFullMsgInSeqNumWindow s m => st.setCommitFullMsgInSeqNumWindow s m
  | .setCheckpointMsgInCheckWindow s m => st.setCheckpointMsgInCheckWindow s m
  | .setCompletedMarkInCheckWindow s f => st.setCompletedMarkInCheckWindow s f

/-- What a call is meant to write: a setter its cell, and a move of the windows also the initial values
    of all cells outside of them. -/
def Call.writes : Call Config → (c : Cell) → Option (c.Value Config)
  | .beginWriteTran => fun _ => none
  | .endWriteTran => fun _ => none
  | .setReplicaConfig config => only .config (some config)
  | .setFetchingState f => only .fetchingState f
  | .setLastExecutedSeqNum s => only .lastExecutedSeqNum s
  | .setPrimaryLastUsedSeqNum s => only .primaryLastUsedSeqNum s
  | .setStrictLowerBoundOfSeqNums s => only .strictLowerBoundOfSeqNums s
  | .setLastViewThatTransferredSeqNumbersFullyExecuted v =>
    only .lastViewThatTransferredSeqNumbersFullyExecuted v
  | .setDescriptorOfLastExitFromView d => only .descriptorOfLastExitFromView (some d)
  | .setDescriptorOfLastNewView d => only .descriptorOfLastNewView (some d)
  | .setDescriptorOfLastExecution d => only .descriptorOfLastExecution (some d)
  | .setLastStableSeqNum s => fun c =>
    if c.outside s then some (c.initial Config) else only .lastStableSeqNum s c
  | .clearSeqNumWindow => fun c => if c.seqNum?.isSome then some (c.initial Config) else none
  | .setPrePrepareMsgInSeqNumWindow s m => only (.prePrepareMsg s) (some m)
  | .setSlowStartedInSeqNumWindow s b => only (.slowStarted s) b
  | .setFullCommitProofMsgInSeqNumWindow s m => only (.fullCommitProofMsg s) (some m)
  | .setForceCompletedInSeqNumWindow s b => only (.forceCompleted s) b
  | .setPrepareFullMsgInSeqNumWindow s m => only (.prepareFullMsg s) (some m)
  | .setCommitFullMsgInSeqNumWindow s m => only (.commitFullMsg s) (some m)
  | .setCheckpointMsgInCheckWindow s m => only (.checkpointMsg s) (some m)
  | .setCompletedMarkInCheckWindow s f => only (.completedMark s) f

/-- The value that a sequence of calls has written last to a cell. -/
def lastWritten (calls : List (Call Config)) : (c : Cell) → c.Value Config :=
  Cells.lastWritten Call.writes (Cell.initial Config) calls

/-! ## The storage implements the store -/

/-- What the storage holds in a cell. -/
def content : (c : Cell) → c.Value Config
  | .config => st.config
  | .fetchingState => st.fetchingState
  | .lastExecutedSeqNum => st.lastExecutedSeqNum
  | .primaryLastUsedSeqNum => st.primaryLastUsedSeqNum
  | .strictLowerBoundOfSeqNums => st.strictLowerBoundOfSeqNums
  | .lastViewThatTransferredSeqNumbersFullyExecuted =>
    st.lastViewThatTransferredSeqNumbersFullyExecuted
  | .descriptorOfLastExitFromView => st.descriptorOfLastExitFromView
  | .descriptorOfLastNewView => st.descriptorOfLastNewView
  | .descriptorOfLastExecution => st.descriptorOfLastExecution
  | .lastStableSeqNum => st.lastStableSeqNum
  | .prePrepareMsg s => (st.seqNumWindow.entry s).prePrepareMsg
  | .slowStarted s => (st.seqNumWindow.entry s).slowStarted
  | .fullCommitProofMsg s => (st.seqNumWindow.entry s).fullCommitProofMsg
  | .forceCompleted s => (st.seqNumWindow.entry s).forceCompleted
  | .prepareFullMsg s => (st.seqNumWindow.entry s).prepareFullMsg
  | .commitFullMsg s => (st.seqNumWindow.entry s).commitFullMsg
  | .checkpointMsg s => (st.checkWindow.entry s).checkpointMsg
  | .completedMark s => (st.checkWindow.entry s).completedMark

/-- The windows follow the stable sequence number, and no pointer in a descriptor is null. -/
structure Inv : Prop where
  seqNumWindow_begin : st.seqNumWindow.beginningOfActiveWindow = st.lastStableSeqNum + 1
  checkWindow_begin : st.checkWindow.beginningOfActiveWindow = st.lastStableSeqNum
  lastStable_mod : st.lastStableSeqNum % (150 : ℕ) = 0
  prePrepares : ∀ d ∈ st.descriptorOfLastExitFromView, ∀ e ∈ d.elements, e.prePrepare.isSome = true
  newViewMsg : ∀ d ∈ st.descriptorOfLastNewView, d.newViewMsg.isSome = true
  viewChangeMsgs : ∀ d ∈ st.descriptorOfLastNewView, ∀ m ∈ d.viewChangeMsgs, m.isSome = true

theorem inv_init : Inv ({} : DebugPersistentStorage Config) where
  seqNumWindow_begin := rfl
  checkWindow_begin := rfl
  lastStable_mod := rfl
  prePrepares := by simp
  newViewMsg := by simp
  viewChangeMsgs := by simp

theorem content_init (c : Cell) :
    content ({} : DebugPersistentStorage Config) c = c.initial Config := by
  cases c <;> simp [content] <;> rfl

variable {cfg st} {st' : DebugPersistentStorage Config} {s : SeqNum} {α : Type}

/-- What a call of the storage has to do. -/
def Implements (call : Call Config) (st st' : DebugPersistentStorage Config) : Prop :=
  Inv st' ∧ ∀ c, content st' c = (call.writes c).getD (content st c)

theorem checkPrevViewInfo_ok {view : ViewNum} {e : PrevViewInfo}
    (h : st.checkPrevViewInfo view e = .ok ()) : e.prePrepare.isSome = true := by
  unfold checkPrevViewInfo at h
  cases he : e.prePrepare with
  | none =>
    rw [he] at h
    simp at h
  | some prePrepare => rfl

theorem checkViewChangeMsg_ok {view : ViewNum} {newViewMsg : NewViewMsg} {vc : Option ViewChangeMsg}
    (h : checkViewChangeMsg cfg view newViewMsg vc = .ok ()) : vc.isSome = true := by
  cases vc with
  | none => exact absurd h (by simp [checkViewChangeMsg])
  | some vc => rfl

/-- A loop of checks that passes has checked every element. -/
theorem forM_eq_ok {check : α → Except Failure Unit} {as : List α} {u : Unit}
    (h : as.forM check = .ok u) : ∀ a ∈ as, check a = .ok () := by
  induction as with
  | nil => simp
  | cons a rest ih =>
    have hbind : (check a >>= fun _ => rest.forM check) = .ok u := h
    obtain ⟨_, ha, hrest⟩ := bind_eq_ok hbind
    intro b hb
    rcases List.mem_cons.1 hb with hb | hb
    · rw [hb]
      exact ha
    · exact ih hrest b hb

theorem setDescriptorOfLastExitFromView_implements (h : Inv st) {d : DescriptorOfLastExitFromView}
    (hset : st.setDescriptorOfLastExitFromView d = .ok st') :
    Implements (.setDescriptorOfLastExitFromView d) st st' := by
  iterate 8 obtain ⟨-, hset⟩ := require_bind_eq_ok hset
  obtain ⟨u, hloop, hset⟩ := bind_eq_ok hset
  cases hset
  refine ⟨{ h with prePrepares := ?_ }, eq_only_getD rfl ?_⟩
  · rintro d' ⟨⟩ e he
    exact checkPrevViewInfo_ok (forM_eq_ok hloop e he)
  · intro c hc
    cases c <;> first | rfl | exact absurd rfl hc

theorem setDescriptorOfLastNewView_implements (h : Inv st) {d : DescriptorOfLastNewView}
    (hset : st.setDescriptorOfLastNewView cfg d = .ok st') :
    Implements (.setDescriptorOfLastNewView d) st st' := by
  iterate 4 obtain ⟨-, hset⟩ := require_bind_eq_ok hset
  cases hmsg : d.newViewMsg with
  | none =>
    rw [hmsg] at hset
    simp at hset
  | some newViewMsg =>
    rw [hmsg] at hset
    obtain ⟨-, hset⟩ := require_bind_eq_ok hset
    obtain ⟨-, hset⟩ := require_bind_eq_ok hset
    obtain ⟨u, hloop, hset⟩ := bind_eq_ok hset
    cases hset
    refine ⟨{ h with newViewMsg := ?_, viewChangeMsgs := ?_ }, eq_only_getD rfl ?_⟩
    · rintro d' ⟨⟩
      rw [hmsg]
      rfl
    · rintro d' ⟨⟩ m hm
      exact checkViewChangeMsg_ok (forM_eq_ok hloop m hm)
    · intro c hc
      cases c <;> first | rfl | exact absurd rfl hc

theorem updateSeqNumWindow_eq {check : SeqNumData → Bool} {update : SeqNumData → SeqNumData}
    (hset : st.updateSeqNumWindow s check update = .ok st') :
    st.seqNumWindow.Holds s ∧
      st' = { st with
        seqNumWindow := st.seqNumWindow.set s (update (st.seqNumWindow.entry s)) } := by
  obtain ⟨-, hset⟩ := require_bind_eq_ok hset
  obtain ⟨seqNumData, hget, hset⟩ := bind_eq_ok hset
  obtain ⟨-, hset⟩ := require_bind_eq_ok hset
  obtain ⟨hholds, hlookup⟩ := get_eq_ok_iff.1 hget
  cases hset
  refine ⟨hholds, ?_⟩
  rw [entry_eq_lookup hholds, hlookup]

/-- A change of the entry of one sequence number is seen in the cells of that number only. -/
theorem content_set_seqNumWindow_of_ne (hholds : st.seqNumWindow.Holds s) (item : SeqNumData)
    {c : Cell} (hc : c.seqNum? ≠ some s) :
    content { st with seqNumWindow := st.seqNumWindow.set s item } c = content st c := by
  cases c <;> first | rfl | skip
  all_goals
    simp only [Cell.seqNum?, ne_eq, Option.some.injEq] at hc
    simp only [content, entry_set hholds, if_neg hc]

theorem updateCheckWindow_eq {update : CheckData → CheckData}
    (hset : st.updateCheckWindow s update = .ok st') :
    st.checkWindow.Holds s ∧
      st' = { st with
        checkWindow := st.checkWindow.set s (update (st.checkWindow.entry s)) } := by
  obtain ⟨-, hset⟩ := require_bind_eq_ok hset
  obtain ⟨checkData, hget, hset⟩ := bind_eq_ok hset
  obtain ⟨hholds, hlookup⟩ := get_eq_ok_iff.1 hget
  cases hset
  refine ⟨hholds, ?_⟩
  rw [entry_eq_lookup hholds, hlookup]

theorem content_set_checkWindow_of_ne (hholds : st.checkWindow.Holds s) (item : CheckData)
    {c : Cell} (hc : c.checkpoint? ≠ some s) :
    content { st with checkWindow := st.checkWindow.set s item } c = content st c := by
  cases c <;> first | rfl | skip
  all_goals
    simp only [Cell.checkpoint?, ne_eq, Option.some.injEq] at hc
    simp only [content, entry_set hholds, if_neg hc]

theorem setLastStableSeqNum_eq (h : Inv st) (hset : st.setLastStableSeqNum s = .ok st') :
    ∃ seqNumWindow checkWindow,
      st' = { st with
        lastStableSeqNum := s
        seqNumWindow := seqNumWindow
        checkWindow := checkWindow } ∧
      seqNumWindow.beginningOfActiveWindow = s + 1 ∧ checkWindow.beginningOfActiveWindow = s ∧
      s % (150 : ℕ) = 0 ∧
      (∀ n, seqNumWindow.entry n =
        if s + 1 ≤ n ∧ n < s + 1 + (300 : ℕ) then st.seqNumWindow.entry n else default) ∧
      (∀ n, checkWindow.entry n =
        if s ≤ n ∧ n < s + (450 : ℕ) then st.checkWindow.entry n else default) := by
  obtain ⟨-, hset⟩ := require_bind_eq_ok hset
  obtain ⟨seqNumWindow, hseq, hset⟩ := bind_eq_ok hset
  obtain ⟨checkWindow, hcheck, hset⟩ := bind_eq_ok hset
  cases hset
  have hmod : st.checkWindow.beginningOfActiveWindow % (150 : ℕ) = 0 := by
    rw [h.checkWindow_begin, h.lastStable_mod]
  obtain ⟨hseqBegin, -, hseqEntry⟩ := entry_advanceActiveWindow (Int.emod_one _) hseq
  obtain ⟨hcheckBegin, hs, hcheckEntry⟩ := entry_advanceActiveWindow hmod hcheck
  exact ⟨seqNumWindow, checkWindow, rfl, hseqBegin, hcheckBegin, hs, hseqEntry, hcheckEntry⟩

theorem setLastStableSeqNum_implements (h : Inv st) (hset : st.setLastStableSeqNum s = .ok st') :
    Implements (.setLastStableSeqNum s) st st' := by
  obtain ⟨seqNumWindow, checkWindow, rfl, hseqBegin, hcheckBegin, hs, hseq, hcheck⟩ :=
    setLastStableSeqNum_eq h hset
  refine ⟨{ h with
    seqNumWindow_begin := hseqBegin, checkWindow_begin := hcheckBegin, lastStable_mod := hs }, ?_⟩
  intro c
  show _ = (if c.outside s then some (c.initial Config) else only .lastStableSeqNum s c).getD _
  split_ifs with hout
  · cases c <;> simp only [Cell.outside, Cell.seqNum?, Cell.checkpoint?, Option.any_some,
      Option.any_none, Bool.or_false, Bool.false_or, Bool.not_eq_true', decide_eq_false_iff_not,
      Bool.false_eq_true] at hout
    all_goals
      simp only [content, hseq, hcheck, if_neg hout]
      rfl
  · by_cases hc : Cell.lastStableSeqNum = c
    · subst hc
      rfl
    · cases c <;> first | rfl | exact absurd rfl hc | skip
      all_goals
        simp only [Cell.outside, Cell.seqNum?, Cell.checkpoint?, Option.any_some, Option.any_none,
          Bool.or_false, Bool.false_or, Bool.not_eq_true', decide_eq_false_iff_not, not_not] at hout
        simp only [content, hseq, hcheck, if_pos hout]
        rfl

/-- **Every call writes its cell.** -/
theorem step_implements (h : Inv st) {call : Call Config} (hstep : st.step cfg call = .ok st') :
    Implements call st st' := by
  cases call
  -- the checks of the setters
  case' endWriteTran | setPrimaryLastUsedSeqNum | setStrictLowerBoundOfSeqNums | clearSeqNumWindow
      | setForceCompletedInSeqNumWindow s _ | setCompletedMarkInCheckWindow s _ =>
    obtain ⟨-, hstep⟩ := require_bind_eq_ok hstep
  case' setReplicaConfig | setFetchingState | setLastExecutedSeqNum
      | setLastViewThatTransferredSeqNumbersFullyExecuted =>
    iterate 2 obtain ⟨-, hstep⟩ := require_bind_eq_ok hstep
  case' setDescriptorOfLastExecution => iterate 5 obtain ⟨-, hstep⟩ := require_bind_eq_ok hstep
  case beginWriteTran | endWriteTran =>
    cases hstep
    exact ⟨{ h with }, fun c => by cases c <;> rfl⟩
  case setDescriptorOfLastExitFromView => exact setDescriptorOfLastExitFromView_implements h hstep
  case setDescriptorOfLastNewView => exact setDescriptorOfLastNewView_implements h hstep
  case setLastStableSeqNum => exact setLastStableSeqNum_implements h hstep
  case clearSeqNumWindow =>
    cases hstep
    refine ⟨{ h with }, ?_⟩
    intro c
    cases c <;> first | rfl | skip
    all_goals
      simp only [content, entry_resetAll]
      rfl
  case setPrePrepareMsgInSeqNumWindow s _ | setSlowStartedInSeqNumWindow s _
      | setFullCommitProofMsgInSeqNumWindow s _ | setForceCompletedInSeqNumWindow
      | setPrepareFullMsgInSeqNumWindow s _ | setCommitFullMsgInSeqNumWindow s _ =>
    obtain ⟨hholds, rfl⟩ := updateSeqNumWindow_eq hstep
    refine ⟨{ h with }, eq_only_getD (by simp [content, entry_set hholds]) ?_⟩
    intro c hc
    by_cases hs : c.seqNum? = some s
    · cases c <;> simp only [Cell.seqNum?, Option.some.injEq, reduceCtorEq] at hs
      all_goals
        subst hs
        first | exact absurd rfl hc | simp [content, entry_set hholds]
    · exact content_set_seqNumWindow_of_ne hholds _ hs
  case setCheckpointMsgInCheckWindow s _ | setCompletedMarkInCheckWindow =>
    obtain ⟨hholds, rfl⟩ := updateCheckWindow_eq hstep
    refine ⟨{ h with }, eq_only_getD (by simp [content, entry_set hholds]) ?_⟩
    intro c hc
    by_cases hs : c.checkpoint? = some s
    · cases c <;> simp only [Cell.checkpoint?, Option.some.injEq, reduceCtorEq] at hs
      all_goals
        subst hs
        first | exact absurd rfl hc | simp [content, entry_set hholds]
    · exact content_set_checkWindow_of_ne hholds _ hs
  all_goals
    cases hstep
    refine ⟨{ h with }, eq_only_getD rfl ?_⟩
    intro c hc
    cases c <;> first | rfl | exact absurd rfl hc

/-- **The storage holds what was written last**, after every sequence of calls that it accepts. -/
theorem content_eq_lastWritten {calls : List (Call Config)}
    (hrun : calls.foldlM (step cfg) {} = .ok st) :
    Inv st ∧ ∀ c, content st c = lastWritten calls c :=
  Cells.content_eq_lastWritten Inv inv_init content_init
    (fun _ _ _ hinv hstep => step_implements hinv hstep) hrun

/-! ## The getters -/

theorem read_eq (hget : st.getIsAllowed = true) (v : α) : st.read v = .ok v := by
  unfold read
  rw [require_of hget]
  rfl

theorem readDescriptor_toOption (hget : st.getIsAllowed = true) (d : Option α) :
    (st.readDescriptor d).toOption = d := by
  unfold readDescriptor
  rw [require_of hget]
  cases d with
  | none => rfl
  | some d => rfl

theorem bind_cloneObjAndMsg_toOption {x : Except ReadFailure (Option α)} {m : Option α}
    (h : x = .ok m) : (x >>= cloneObjAndMsg).toOption = m := by
  rw [h]
  cases m with
  | none => rfl
  | some m => rfl

/-- A loop of clones of pointers that are not null. -/
theorem mapM_eq_self {f : α → Except ReadFailure α} {as : List α} (h : ∀ a ∈ as, f a = .ok a) :
    as.mapM f = .ok as := by
  induction as with
  | nil => rfl
  | cons a rest ih =>
    rw [List.mapM_cons, h a List.mem_cons_self, ih fun b hb => h b (List.mem_cons_of_mem a hb)]
    rfl

theorem mapM_cloneObjAndMsg {as : List (Option α)} (h : ∀ a ∈ as, a.isSome = true) :
    ∃ bs, as.mapM (cloneObjAndMsg) = .ok bs ∧ bs.map some = as := by
  induction as with
  | nil => exact ⟨[], rfl, rfl⟩
  | cons a rest ih =>
    obtain ⟨b, rfl⟩ := Option.isSome_iff_exists.1 (h a List.mem_cons_self)
    obtain ⟨bs, hbs, hmap⟩ := ih fun c hc => h c (List.mem_cons_of_mem _ hc)
    refine ⟨b :: bs, ?_, by rw [List.map_cons, hmap]⟩
    rw [List.mapM_cons, hbs]
    rfl

section

variable (h : Inv st) (hget : st.getIsAllowed = true)
include h hget

theorem exitDescriptor_toOption :
    st.getAndAllocateDescriptorOfLastExitFromView.toOption = st.descriptorOfLastExitFromView := by
  unfold getAndAllocateDescriptorOfLastExitFromView readDescriptor
  rw [require_of hget, ok_bind]
  cases hd : st.descriptorOfLastExitFromView with
  | none => rfl
  | some d =>
    have hself : (d.elements.mapM fun e => do
        let prePrepare ← cloneObjAndMsg e.prePrepare
        pure { e with prePrepare := some prePrepare }) = .ok d.elements := by
      apply mapM_eq_self
      intro e he
      obtain ⟨prePrepare, hpp⟩ := Option.isSome_iff_exists.1 (h.prePrepares d hd e he)
      rw [hpp]
      show Except.ok { e with prePrepare := some prePrepare } = .ok e
      rw [← hpp]
    rw [pure_bind, hself]
    rfl

theorem newViewDescriptor_toOption :
    st.getAndAllocateDescriptorOfLastNewView.toOption = st.descriptorOfLastNewView := by
  unfold getAndAllocateDescriptorOfLastNewView readDescriptor
  rw [require_of hget, ok_bind]
  cases hd : st.descriptorOfLastNewView with
  | none => rfl
  | some d =>
    obtain ⟨newViewMsg, hmsg⟩ := Option.isSome_iff_exists.1 (h.newViewMsg d hd)
    obtain ⟨viewChangeMsgs, hmapM, hmap⟩ := mapM_cloneObjAndMsg (h.viewChangeMsgs d hd)
    rw [pure_bind, hmsg, hmapM]
    show some { d with newViewMsg := some newViewMsg, viewChangeMsgs := viewChangeMsgs.map some } =
      some d
    rw [hmap, ← hmsg]

theorem readSeqNumWindow_eq (hlo : st.lastStableSeqNum + 1 ≤ s)
    (hhi : s ≤ st.lastStableSeqNum + kWorkWindowSize) (field : SeqNumData → α) :
    st.readSeqNumWindow s field = .ok (field (st.seqNumWindow.entry s)) := by
  have hholds : st.seqNumWindow.Holds s := by
    refine holds_iff.2 ⟨Int.emod_one s, ?_, ?_⟩
    · rw [h.seqNumWindow_begin]
      exact hlo
    · rw [h.seqNumWindow_begin]
      unfold kWorkWindowSize at hhi
      lia
  unfold readSeqNumWindow
  rw [require_of hget, require_of h.seqNumWindow_begin.symm, require_of hholds.2, require_of hholds,
    entry_eq_lookup hholds]
  rfl

theorem readCheckWindow_eq {α : Type} {s : SeqNum}
    (hs : s ∈ [st.lastStableSeqNum, st.lastStableSeqNum + checkpointWindowSize,
      st.lastStableSeqNum + 2 * checkpointWindowSize])
    (field : CheckData → α) :
    st.readCheckWindow s field = .ok (field (st.checkWindow.entry s)) := by
  have hholds : st.checkWindow.Holds s := by
    have hmod := h.lastStable_mod
    simp only [checkpointWindowSize, List.mem_cons, List.not_mem_nil] at hs
    refine holds_iff.2 ?_
    rw [h.checkWindow_begin]
    lia
  unfold readCheckWindow
  rw [require_of hget, ok_bind, require_of h.checkWindow_begin.symm, require_of hholds.2,
    require_of hholds, entry_eq_lookup hholds]
  rfl

end

/-- All getters except `getLastExecutedSeqNum` return what was written last. A getter of a message or
    descriptor that was not written does not return: `toOption` is `none`. -/
structure ReadsBack (calls : List (Call Config)) (st : DebugPersistentStorage Config) : Prop where
  hasReplicaConfig : st.hasReplicaConfig = (lastWritten calls .config).isSome
  getReplicaConig : st.getReplicaConig.toOption = lastWritten calls .config
  getFetchingState : st.getFetchingState = .ok (lastWritten calls .fetchingState)
  getPrimaryLastUsedSeqNum :
    st.getPrimaryLastUsedSeqNum = .ok (lastWritten calls .primaryLastUsedSeqNum)
  getStrictLowerBoundOfSeqNums :
    st.getStrictLowerBoundOfSeqNums = .ok (lastWritten calls .strictLowerBoundOfSeqNums)
  getLastViewThatTransferredSeqNumbersFullyExecuted :
    st.getLastViewThatTransferredSeqNumbersFullyExecuted =
      .ok (lastWritten calls .lastViewThatTransferredSeqNumbersFullyExecuted)
  hasDescriptorOfLastExitFromView : st.hasDescriptorOfLastExitFromView =
    .ok (lastWritten calls .descriptorOfLastExitFromView).isSome
  getAndAllocateDescriptorOfLastExitFromView :
    st.getAndAllocateDescriptorOfLastExitFromView.toOption =
      lastWritten calls .descriptorOfLastExitFromView
  hasDescriptorOfLastNewView : st.hasDescriptorOfLastNewView =
    .ok (lastWritten calls .descriptorOfLastNewView).isSome
  getAndAllocateDescriptorOfLastNewView :
    st.getAndAllocateDescriptorOfLastNewView.toOption = lastWritten calls .descriptorOfLastNewView
  hasDescriptorOfLastExecution : st.hasDescriptorOfLastExecution =
    .ok (lastWritten calls .descriptorOfLastExecution).isSome
  getDescriptorOfLastExecution :
    st.getDescriptorOfLastExecution.toOption = lastWritten calls .descriptorOfLastExecution
  getLastStableSeqNum : st.getLastStableSeqNum = .ok (lastWritten calls .lastStableSeqNum)
  seqNumWindow : ∀ s : SeqNum, lastWritten calls .lastStableSeqNum + 1 ≤ s →
    s ≤ lastWritten calls .lastStableSeqNum + kWorkWindowSize →
    (st.getAndAllocatePrePrepareMsgInSeqNumWindow s).toOption = lastWritten calls (.prePrepareMsg s) ∧
    st.getSlowStartedInSeqNumWindow s = .ok (lastWritten calls (.slowStarted s)) ∧
    (st.getAndAllocateFullCommitProofMsgInSeqNumWindow s).toOption =
      lastWritten calls (.fullCommitProofMsg s) ∧
    st.getForceCompletedInSeqNumWindow s = .ok (lastWritten calls (.forceCompleted s)) ∧
    (st.getAndAllocatePrepareFullMsgInSeqNumWindow s).toOption =
      lastWritten calls (.prepareFullMsg s) ∧
    (st.getAndAllocateCommitFullMsgInSeqNumWindow s).toOption = lastWritten calls (.commitFullMsg s)
  checkWindow : ∀ s ∈ [lastWritten calls .lastStableSeqNum,
      lastWritten calls .lastStableSeqNum + checkpointWindowSize,
      lastWritten calls .lastStableSeqNum + 2 * checkpointWindowSize],
    (st.getAndAllocateCheckpointMsgInCheckWindow s).toOption = lastWritten calls (.checkpointMsg s) ∧
    st.getCompletedMarkInCheckWindow s = .ok (lastWritten calls (.completedMark s))

theorem readsBack_of_content {calls : List (Call Config)} (h : Inv st)
    (hget : st.getIsAllowed = true) (hcontent : ∀ c, content st c = lastWritten calls c) :
    ReadsBack calls st := by
  constructor
  all_goals simp only [← hcontent]
  case hasReplicaConfig => rfl
  case getReplicaConig | getDescriptorOfLastExecution => exact readDescriptor_toOption hget _
  case getAndAllocateDescriptorOfLastExitFromView => exact exitDescriptor_toOption h hget
  case getAndAllocateDescriptorOfLastNewView => exact newViewDescriptor_toOption h hget
  case seqNumWindow =>
    intro s hlo hhi
    have hread : ∀ {α : Type} (field : SeqNumData → α), st.readSeqNumWindow s field = _ :=
      readSeqNumWindow_eq h hget hlo hhi
    exact ⟨bind_cloneObjAndMsg_toOption (hread _), hread _, bind_cloneObjAndMsg_toOption (hread _),
      hread _, bind_cloneObjAndMsg_toOption (hread _), bind_cloneObjAndMsg_toOption (hread _)⟩
  case checkWindow =>
    intro s hs
    exact ⟨bind_cloneObjAndMsg_toOption (readCheckWindow_eq h hget hs _),
      readCheckWindow_eq h hget hs _⟩
  -- the other getters return the variable as it is
  all_goals exact read_eq hget _

/-- **Reading back.** After every sequence of calls that the storage accepts, outside of a transaction,
    every getter returns what was written last, but `getLastExecutedSeqNum` does so only if that is
    also the last stable sequence number; and a move of the windows keeps the entries that stay in
    them and resets all others. -/
theorem readsBack_and_getLastExecutedSeqNum_iff (cfg : StorageConfig) (calls : List (Call Config))
    (st : DebugPersistentStorage Config) (hrun : calls.foldlM (step cfg) {} = .ok st) :
    (st.getIsAllowed = true → ReadsBack calls st ∧
      (st.getLastExecutedSeqNum = .ok (lastWritten calls .lastExecutedSeqNum) ↔
        (lastWritten calls .lastExecutedSeqNum : SeqNum) = lastWritten calls .lastStableSeqNum)) ∧
    ∀ (s : SeqNum) (st' : DebugPersistentStorage Config), st.setLastStableSeqNum s = .ok st' →
      (∀ n, st'.seqNumWindow.entry n =
        if s + 1 ≤ n ∧ n ≤ s + kWorkWindowSize then st.seqNumWindow.entry n else {}) ∧
      ∀ n, st'.checkWindow.entry n =
        if s ≤ n ∧ n < s + 3 * checkpointWindowSize then st.checkWindow.entry n else {} := by
  obtain ⟨hinv, hcontent⟩ := content_eq_lastWritten hrun
  constructor
  · intro hget
    refine ⟨readsBack_of_content hinv hget hcontent, ?_⟩
    rw [getLastExecutedSeqNum, read_eq hget, Except.ok.injEq, ← hcontent .lastStableSeqNum, eq_comm]
    exact Iff.rfl
  · intro s st' hset
    obtain ⟨seqNumWindow, checkWindow, rfl, -, -, -, hseq, hcheck⟩ := setLastStableSeqNum_eq hinv hset
    constructor
    · intro n
      show seqNumWindow.entry n = _
      rw [hseq n]
      refine if_congr ?_ rfl rfl
      unfold kWorkWindowSize
      lia
    · intro n
      show checkWindow.entry n = _
      rw [hcheck n]
      refine if_congr ?_ rfl rfl
      unfold checkpointWindowSize
      lia

/-- Four replicas; no digest is computed. -/
def fourReplicasStorage : StorageConfig where
  fVal := 1
  cVal := 0
  getMsgDigest := fun _ => Digest.zero

/-- A transaction that writes a flag and a message, executes up to 150 and moves the windows. -/
def transactionUpTo (lastStable : SeqNum) : List (Call Unit) :=
  [.beginWriteTran, .setReplicaConfig (), .setSlowStartedInSeqNumWindow 200 true,
    .setPrePrepareMsgInSeqNumWindow 7 (.createNullPrePrepareMsg 0 0 7), .setLastExecutedSeqNum 150,
    .setLastStableSeqNum lastStable, .endWriteTran]

theorem readsBack_transactionUpTo :
    ∃ st, (transactionUpTo 150).foldlM (step fourReplicasStorage) {} = .ok st ∧
      st.getSlowStartedInSeqNumWindow 200 = .ok true ∧ st.getLastExecutedSeqNum = .ok 150 := by
  have hrun : (((transactionUpTo 150).foldlM (step fourReplicasStorage) {}).toOption.map fun st =>
      st.getIsAllowed) = some true := by
    decide +kernel
  obtain ⟨st, hst, hget⟩ := Option.map_eq_some_iff.1 hrun
  have hok := eq_ok_of_toOption hst
  obtain ⟨hread, hlast⟩ := (readsBack_and_getLastExecutedSeqNum_iff _ _ st hok).1 hget
  refine ⟨st, hok, ?_, ?_⟩
  · exact (hread.seqNumWindow 200 (by decide +kernel) (by decide +kernel)).2.1
  · exact hlast.2 (by decide +kernel)

/-- The sequence number 150 is executed, but 0 is read back. -/
theorem getLastExecutedSeqNum_transactionUpTo :
    lastWritten (transactionUpTo 0) .lastExecutedSeqNum = (150 : SeqNum) ∧
      (((transactionUpTo 0).foldlM (step fourReplicasStorage) {}).toOption.map fun st =>
        st.getLastExecutedSeqNum) = some (.ok 0) := by
  decide +kernel

end DebugPersistentStorage

end ConcordBft
