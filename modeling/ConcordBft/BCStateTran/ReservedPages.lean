import ConcordBft.BCStateTran.Handlers
import ConcordBft.BCStateTran.Store

set_option autoImplicit false

/-! # Reserved pages are a versioned memory

The abstract memory has current contents and one snapshot for each checkpoint. The store refines it:
the current contents of a page are the pending page or the newest version, and the snapshot of a stored
checkpoint is the newest version that is not above the checkpoint. -/

namespace ConcordBft.BCStateTran

open Checked Machine InMemoryDataStore OrderedMap

/-! ## The abstract memory -/

/-- A memory with a snapshot for each checkpoint. -/
@[ext]
structure VersionedMemory (ι ν : Type) where
  current : ι → ν
  snapshot : ℕ → ι → ν

namespace VersionedMemory

variable {ι ν : Type} [DecidableEq ι]

/-- Writes to the current contents. -/
def write (mem : VersionedMemory ι ν) (i : ι) (v : ν) : VersionedMemory ι ν :=
  { mem with current := Function.update mem.current i v }

/-- Keeps the current contents. -/
def checkpoint (mem : VersionedMemory ι ν) (c : ℕ) : VersionedMemory ι ν :=
  { mem with snapshot := Function.update mem.snapshot c mem.current }

variable {mem : VersionedMemory ι ν} {i j : ι} {v : ν} {c c' : ℕ}

theorem current_write_self : (mem.write i v).current i = v := by
  simp [write]

theorem current_write_of_ne (h : j ≠ i) : (mem.write i v).current j = mem.current j := by
  simp [write, h]

omit [DecidableEq ι] in
theorem snapshot_checkpoint_self : (mem.checkpoint c).snapshot c = mem.current := by
  simp [checkpoint]

omit [DecidableEq ι] in
theorem snapshot_checkpoint_of_ne (h : c' ≠ c) :
    (mem.checkpoint c).snapshot c' = mem.snapshot c' := by
  simp [checkpoint, h]

end VersionedMemory

/-- A memory of zero pages. -/
def zeroMemory : VersionedMemory ℕ Page := ⟨fun _ => Page.padded [], fun _ _ => Page.padded []⟩

/-- What a call does to the memory. -/
def Event.apply (mem : VersionedMemory ℕ Page) : Event → VersionedMemory ℕ Page
  | .saveReservedPage p data => mem.write p (Page.padded data)
  | .zeroReservedPage p => mem.write p (Page.padded [])
  | .createCheckpointOfCurrentState c => mem.checkpoint c
  | _ => mem

/-- The memory after a list of calls. -/
def memoryAfter (calls : List (Env × Event)) : VersionedMemory ℕ Page :=
  calls.foldl (fun mem i => i.2.apply mem) zeroMemory

/-- The calls that write pages or create checkpoints, and the blocks of the application. -/
def Event.isPageCall : Event → Bool
  | .saveReservedPage _ _ => true
  | .zeroReservedPage _ => true
  | .createCheckpointOfCurrentState _ => true
  | .appendBlock block => decide (0 < block.length)
  | _ => false

/-- The preconditions of the calls. -/
def Event.Legal (cfg : Config) (st : BCStateTran) : Event → Prop
  | .saveReservedPage p data => p < cfg.numberOfReservedPages ∧ data.length ≤ kSizeOfReservedPage
  | .zeroReservedPage p => p < cfg.numberOfReservedPages
  | .createCheckpointOfCurrentState c => st.psd.lastStoredCheckpoint < c
  | _ => True

/-! ## Current contents -/

variable {cfg : Config} {psd psd' : InMemoryDataStore} {st st' : BCStateTran} {c p n : ℕ}
  {page : Page} {mem : VersionedMemory ℕ Page}

/-- The current contents of a page: the pending page, or else the newest version. -/
def contents (psd : InMemoryDataStore) (p : ℕ) : Option Page :=
  match psd.pendingPages.find? p with
  | some page => some page
  | none => (version psd.pages p psd.lastStoredCheckpoint).map (·.2.page)

theorem contents_of_pending (h : (p, page) ∈ psd.pendingPages) : contents psd p = some page := by
  unfold contents
  rw [find?_eq_some_iff.2 h]

theorem contents_of_not_pending (h : psd.hasPendingResPage p = false) :
    contents psd p = (version psd.pages p psd.lastStoredCheckpoint).map (·.2.page) := by
  have hnone : psd.pendingPages.find? p = none := by
    rw [← Option.not_isSome_iff_eq_none, find?_isSome]
    exact Bool.eq_false_iff.1 h
  unfold contents
  rw [hnone]

theorem loadReservedPage_eq (hfetch : st.isFetching = false) (hp : p < cfg.numberOfReservedPages)
    (hpos : 0 < n) (hn : n ≤ kSizeOfReservedPage) (h : contents st.psd p = some page) :
    st.loadReservedPage cfg p n = .ok (page.1.take n) := by
  unfold loadReservedPage
  simp only [Assert, require_of hfetch, require_of hp, require_of hn]
  cases hpending : st.psd.hasPendingResPage p with
  | true =>
    obtain ⟨page', hpage'⟩ := hasPendingResPage_iff.1 hpending
    have heq : page' = page := Option.some.inj ((contents_of_pending hpage').symm.trans h)
    simp only [getPendingResPage, Assert, require_of hn, find?_eq_some_iff.2 hpage', heq]
    rfl
  | false =>
    rw [contents_of_not_pending hpending] at h
    obtain ⟨v, hv, rfl⟩ := Option.map_eq_some_iff.1 h
    have hle := (version_eq_some_iff.1 hv).le
    simp only [copyResPage_eq (le_refl _) hv hpos hn, ok_bind, require_of hle]
    rfl

theorem padded_zeros : Page.padded (List.replicate kSizeOfReservedPage 0) = Page.padded [] := by
  simp [Page.padded]

/-! ## The store after a write -/

theorem Tidy.write (h : Tidy cfg psd) (hfetch : psd.fetching = false)
    (hp : p < cfg.numberOfReservedPages) :
    Tidy cfg { psd with pendingPages := psd.pendingPages.insert p page } := by
  refine { h with pending_lt := ?_, filled := ?_, fetching_pending := ?_ }
  · intro e he
    rcases mem_insert_iff.1 he with rfl | ⟨hold, -⟩
    · exact hp
    · exact h.pending_lt e hold
  · intro _ q hq
    rcases h.filled hfetch q hq with hpending | hlast
    · left
      obtain ⟨page', hpage'⟩ := hasPendingResPage_iff.1 hpending
      by_cases heq : q = p
      · exact hasPendingResPage_iff.2 ⟨page, mem_insert_iff.2 (Or.inl (by rw [heq]))⟩
      · exact hasPendingResPage_iff.2 ⟨page', mem_insert_iff.2 (Or.inr ⟨hpage', heq⟩)⟩
    · exact Or.inr hlast
  · intro hyes
    rw [hfetch] at hyes
    simp at hyes

theorem contents_write {q : ℕ} :
    contents { psd with pendingPages := psd.pendingPages.insert p page } q =
      if q = p then some page else contents psd q := by
  split_ifs with heq
  · rw [heq]
    exact contents_of_pending (mem_insert_iff.2 (Or.inl rfl))
  · cases hpending : psd.hasPendingResPage q with
    | true =>
      obtain ⟨page', hpage'⟩ := hasPendingResPage_iff.1 hpending
      rw [contents_of_pending hpage']
      exact contents_of_pending (mem_insert_iff.2 (Or.inr ⟨hpage', heq⟩))
    | false =>
      rw [contents_of_not_pending hpending]
      refine contents_of_not_pending (contains_eq_false_iff.2 fun v hv => ?_)
      rcases mem_insert_iff.1 hv with hnew | ⟨hold, -⟩
      · exact heq (congrArg Prod.fst hnew)
      · exact contains_eq_false_iff.1 hpending v hold

/-! ## The first state -/

theorem mem_zeroPages_iff {n : ℕ} {e : ℕ × Page} :
    e ∈ zeroPages n ↔ e.1 < n ∧ e.2 = Page.padded [] := by
  induction n with
  | zero => simp [zeroPages]
  | succ n ih =>
    have hsucc : zeroPages (n + 1) = (zeroPages n).insert n (Page.padded []) := by
      simp [zeroPages, List.range_succ]
    rw [hsucc, mem_insert_iff, ih, Prod.ext_iff]
    constructor
    · rintro (⟨hn, hpage⟩ | ⟨⟨hlt, hpage⟩, -⟩)
      · exact ⟨by dsimp only at hn; omega, hpage⟩
      · exact ⟨by omega, hpage⟩
    · rintro ⟨hlt, hpage⟩
      by_cases hn : e.1 = n
      · exact Or.inl ⟨hn, hpage⟩
      · exact Or.inr ⟨⟨by omega, hpage⟩, hn⟩

theorem tidy_init (as : AppState) : Tidy cfg (init cfg as).psd :=
  tidy_of_pending (fun _ he => (mem_zeroPages_iff.1 he).1)
    (fun _ _ hp => ⟨Page.padded [], mem_zeroPages_iff.2 ⟨hp, rfl⟩⟩) nofun

/-! ## Refinement -/

/-- The store holds the memory. -/
structure Holds (cfg : Config) (st : BCStateTran) (mem : VersionedMemory ℕ Page) : Prop where
  tidy : Tidy cfg st.psd
  whole : st.as.Whole
  notFetching : st.isFetching = false
  current : ∀ p < cfg.numberOfReservedPages, contents st.psd p = some (mem.current p)
  snapshot : ∀ c, st.psd.hasCheckpointDesc c = true → ∀ p < cfg.numberOfReservedPages,
    (version st.psd.pages p c).map (·.2.page) = some (mem.snapshot c p)

theorem holds_init {as : AppState} (has : as.Whole) : Holds cfg (init cfg as) zeroMemory where
  tidy := tidy_init as
  whole := has
  notFetching := rfl
  current _ hp := contents_of_pending (mem_zeroPages_iff.2 ⟨hp, rfl⟩)
  snapshot _ hc := absurd hc (by simp [init, hasCheckpointDesc, contains, empty])

theorem Holds.write (h : Holds cfg st mem) (hp : p < cfg.numberOfReservedPages) :
    Holds cfg { st with psd := { st.psd with
      pendingPages := st.psd.pendingPages.insert p page } } (mem.write p page) := by
  refine ⟨h.tidy.write h.notFetching hp, h.whole, h.notFetching, fun q hq => ?_, h.snapshot⟩
  rw [contents_write]
  split_ifs with heq
  · rw [heq, VersionedMemory.current_write_self]
  · rw [VersionedMemory.current_write_of_ne heq]
    exact h.current q hq

theorem Created.contents_eq (h : Created cfg st.as st.psd c psd') :
    (version psd'.pages p c).map (·.2.page) = contents st.psd p := by
  cases hpending : st.psd.hasPendingResPage p with
  | true =>
    obtain ⟨page, hpage⟩ := hasPendingResPage_iff.1 hpending
    rw [h.version_pending p page hpage, contents_of_pending hpage]
    rfl
  | false => rw [h.version_old p hpending, contents_of_not_pending hpending]

theorem Holds.create (h : Holds cfg st mem) (hcreated : Created cfg st.as st.psd c psd') :
    Holds cfg { st with psd := psd' } (mem.checkpoint c) := by
  have hnone : ∀ p, psd'.hasPendingResPage p = false := by
    intro p
    rw [hcreated.rest_eq]
    rfl
  have hlast : psd'.lastStoredCheckpoint = c := by rw [hcreated.rest_eq]
  refine ⟨hcreated.tidy h.tidy, h.whole, ?_, fun p hp => ?_, fun c' hc' p hp => ?_⟩
  · show psd'.fetching = false
    rw [hcreated.rest_eq]
    exact h.notFetching
  · show contents psd' p = _
    rw [contents_of_not_pending (hnone p), hlast, hcreated.contents_eq]
    exact h.current p hp
  · obtain ⟨desc, -, hmem⟩ := hcreated.mem_desc
    obtain ⟨d, hd⟩ := hasCheckpointDesc_iff.1 hc'
    rcases (hmem _).1 hd with heq | ⟨hold, hle⟩
    · obtain rfl : c' = c := congrArg Prod.fst heq
      rw [VersionedMemory.snapshot_checkpoint_self]
      exact hcreated.contents_eq.trans (h.current p hp)
    · have hlt : c' < c := (h.tidy.desc_le _ hold).trans_lt hcreated.newer
      rw [VersionedMemory.snapshot_checkpoint_of_ne hlt.ne, hcreated.version_before p c' hle hlt]
      exact h.snapshot c' (hasCheckpointDesc_iff.2 ⟨d, hold⟩) p hp

theorem setPendingResPage_eq {data : Bytes} (h : data.length ≤ kSizeOfReservedPage) :
    psd.setPendingResPage p data =
      .ok { psd with pendingPages := psd.pendingPages.insert p (Page.padded data) } := by
  simp only [setPendingResPage, Assert, require_of h]
  rfl

/-- **One call** returns if its precondition holds, and does to the store what it does to the
    memory. -/
theorem step_holds (h : Holds cfg st mem) (env : Env) {e : Event} (he : e.isPageCall = true) :
    Meets (fun _ => ¬ e.Legal cfg st) (fun st' => Holds cfg st' (e.apply mem))
      (st.step cfg env e) := by
  cases e with
  | saveReservedPage p data =>
    refine meets_require_bind (fun hne => absurd h.notFetching hne) fun _ => ?_
    refine meets_require_bind (fun hne hlegal => hne hlegal.1) fun hp => ?_
    refine meets_require_bind (fun hne hlegal => hne hlegal.2) fun hlen => ?_
    exact meets_ok_bind (setPendingResPage_eq hlen) (meets_pure (h.write hp))
  | zeroReservedPage p =>
    refine meets_require_bind (fun hne => absurd h.notFetching hne) fun _ => ?_
    refine meets_require_bind (fun hne hlegal => hne hlegal) fun hp => ?_
    refine meets_ok_bind (setPendingResPage_eq (by simp)) (meets_pure ?_)
    rw [padded_zeros]
    exact h.write hp
  | createCheckpointOfCurrentState c =>
    refine ((createCheckpointOfCurrentState_meets h.tidy h.whole).mono ?_).weaken ?_
    · rintro _ ⟨psd', hcreated, rfl⟩
      exact h.create hcreated
    · exact fun _ hne hlegal => hne ⟨h.notFetching, hlegal⟩
  | appendBlock block =>
    have hne : 0 < block.length := of_decide_eq_true he
    refine meets_pure ?_
    have hnot : ¬ st.isFetching = true := by
      rw [h.notFetching]
      simp
    show Holds cfg (st.appendBlock block) mem
    unfold appendBlock
    rw [if_neg hnot]
    exact ⟨h.tidy, (h.whole.append hne).1, h.notFetching, h.current, h.snapshot⟩
  | markCheckpointAsStable _ | startCollectingState | onTimer | handleStateTransferMessage _ _ =>
    exact absurd he (by simp [Event.isPageCall])

theorem holds_run {calls : List (Env × Event)} (h : Holds cfg st mem)
    (hcalls : ∀ i ∈ calls, i.2.isPageCall = true) (hrun : runSteps (next cfg) st calls = some st') :
    Holds cfg st' (calls.foldl (fun mem i => i.2.apply mem) mem) := by
  induction calls generalizing st mem with
  | nil =>
    obtain rfl : st = st' := Option.some.inj hrun
    exact h
  | cons i rest ih =>
    obtain ⟨s, hs, hrest⟩ := Option.bind_eq_some_iff.1 hrun
    have hstep : st.step cfg i.1 i.2 = .ok s := eq_ok_of_toOption hs
    refine ih ?_ (fun j hj => hcalls j (List.mem_cons_of_mem i hj)) hrest
    exact (step_holds h i.1 (hcalls i List.mem_cons_self)).of_ok hstep

/-- **Reserved pages are a versioned memory.** After any calls that returned, a page reads as it was
    last written, and at a stored checkpoint as it was when the checkpoint was created. A call whose
    precondition holds returns. -/
theorem reservedPages_versioned {as : AppState} (has : as.Whole) {calls : List (Env × Event)}
    (hcalls : ∀ i ∈ calls, i.2.isPageCall = true)
    (hrun : runSteps (next cfg) (init cfg as) calls = some st) :
    (∀ p n, p < cfg.numberOfReservedPages → 0 < n → n ≤ kSizeOfReservedPage →
        st.loadReservedPage cfg p n = .ok (((memoryAfter calls).current p).1.take n)) ∧
      (∀ c p, st.psd.hasCheckpointDesc c = true → p < cfg.numberOfReservedPages →
        ∃ actualCheckpoint val, st.psd.getResPage p c = .ok (actualCheckpoint, val) ∧
          val.page = (memoryAfter calls).snapshot c p) ∧
      (∀ env e, e.isPageCall = true → e.Legal cfg st → ∃ st', st.step cfg env e = .ok st') := by
  have h : Holds cfg st (memoryAfter calls) := holds_run (holds_init has) hcalls hrun
  refine ⟨fun p n hp hpos hn => ?_, fun c p hc hp => ?_, fun env e he hlegal => ?_⟩
  · exact loadReservedPage_eq h.notFetching hp hpos hn (h.current p hp)
  · obtain ⟨v, hv, hpage⟩ := Option.map_eq_some_iff.1 (h.snapshot c hc p hp)
    obtain ⟨d, hd⟩ := hasCheckpointDesc_iff.1 hc
    exact ⟨v.1, v.2, getResPage_of_version (h.tidy.desc_le _ hd) hv, hpage⟩
  · obtain ⟨st', hst', -⟩ := ((step_holds h env he).weaken
      fun _ hne => hne hlegal).returns
    exact ⟨st', hst'⟩

/-! ### An example -/

/-- Four replicas and two reserved pages. Block `n` of the example is the byte `n`, and its digest is
    `n + 1`; the descriptor of two pages that were last written at checkpoint 1 has digest 1. -/
def exampleConfig : Config where
  fVal := 1
  cVal := 0
  myReplicaId := 0
  pedanticChecks := true
  maxBlockSize := 100
  maxChunkSize := 2048
  maxNumberOfChunksInBatch := 24
  maxPendingDataFromSourceReplica := 100000
  maxNumOfReservedPages := 2
  checkpointSummariesRetransmissionTimeoutMilli := 2500
  maxAcceptableMsgDelayMilli := 60000
  sourceReplicaReplacementTimeoutMilli := 5000
  fetchRetransmissionTimeoutMilli := 1000
  maxNumOfStoredCheckpoints := 3
  numberOfReservedPages := 2
  digestOfPage := fun _ _ _ => 1
  digestOfPagesDescriptor := fun desc => if desc = [⟨0, 1, 1⟩, ⟨1, 1, 1⟩] then 1 else 2
  digestOfBlock := fun n block => if block = [UInt8.ofNat n] then BitVec.ofNat 256 (n + 1) else 0
  prevDigestOf := fun block => BitVec.ofNat 256 (block.headD 0).toNat
  myReplicaId_lt := by decide
  maxNumOfStoredCheckpoints_ge := by decide
  maxNumOfStoredCheckpoints_le := by decide
  numberOfReservedPages_ge := by decide
  numberOfReservedPages_le := by decide
  maxChunkSize_pos := by decide

/-- The clocks of the example. -/
def exampleEnv : Env := ⟨1, 1, 0⟩

theorem whole_empty : AppState.Whole .empty :=
  ⟨fun e he => absurd he (not_mem_empty e), rfl,
    fun e he => absurd he (not_mem_empty e)⟩

/-- Page 1 is written, a checkpoint is created, and the page is written again. -/
def exampleCalls : List (Env × Event) :=
  [(exampleEnv, .saveReservedPage 1 [1, 2, 3]), (exampleEnv, .createCheckpointOfCurrentState 1),
    (exampleEnv, .saveReservedPage 1 [4])]

theorem reservedPages_versioned_example :
    ∃ st, runSteps (next exampleConfig) (init exampleConfig .empty) exampleCalls = some st ∧
      st.loadReservedPage exampleConfig 1 3 = .ok [4, 0, 0] ∧
      ∃ c val, st.psd.getResPage 1 1 = .ok (c, val) ∧ val.page.1.take 3 = [1, 2, 3] := by
  have hrun : ((runSteps (next exampleConfig) (init exampleConfig .empty) exampleCalls).any
      fun st => st.psd.hasCheckpointDesc 1) = true := by
    decide +kernel
  obtain ⟨st, hst, hdesc⟩ := (Option.any_eq_true _ _).1 hrun
  obtain ⟨hload, hget, -⟩ := reservedPages_versioned whole_empty (by decide) hst
  refine ⟨st, hst, ?_, ?_⟩
  · rw [hload 1 3 (by decide) (by decide) (by decide)]
    decide +kernel
  · obtain ⟨c, val, hval, hpage⟩ := hget 1 1 hdesc (by decide)
    refine ⟨c, val, hval, ?_⟩
    rw [hpage]
    decide +kernel

/-! ### Deleting covered versions -/

/-- What is stored after covered versions have been deleted. -/
theorem deleteCovered_returns {psd : InMemoryDataStore} {m : ℕ}
    (hpages : ∀ e ∈ psd.pages, e.1.pageId < cfg.numberOfReservedPages ∧
      e.1.checkpoint ≤ m + cfg.maxNumOfStoredCheckpoints)
    (hall : ∀ p < cfg.numberOfReservedPages, ∃ c val, (⟨p, c⟩, val) ∈ psd.pages) :
    psd.deleteCoveredResPageInSmallerCheckpoints cfg m =
      .ok (if m ≤ 1 then psd else { psd with pages := uncovered m psd.pages }) := by
  by_cases hm : m ≤ 1
  · simp [deleteCoveredResPageInSmallerCheckpoints, hm, pure, Except.pure]
  · rw [if_neg hm]
    exact deleteCovered_eq (by omega) hall hpages (Nat.le_add_right _ _) (le_refl _)

/-- **Deleting covered versions is invisible** from checkpoint `m` on, leaves one version of a page up
    to there, and descriptors agree with what is read page by page. The labels of the versions start at
    1 and are not above those of the checkpoints that can be stored from `m` on. -/
theorem deleteCovered_invisible {psd : InMemoryDataStore} {m : ℕ}
    (hpages : ∀ e ∈ psd.pages, e.1.pageId < cfg.numberOfReservedPages ∧ 1 ≤ e.1.checkpoint ∧
      e.1.checkpoint ≤ m + cfg.maxNumOfStoredCheckpoints)
    (hall : ∀ p < cfg.numberOfReservedPages, ∃ c val, c ≤ m ∧ (⟨p, c⟩, val) ∈ psd.pages) :
    ∃ psd', psd.deleteCoveredResPageInSmallerCheckpoints cfg m = .ok psd' ∧
    (∀ c, m ≤ c → (∀ p, psd'.getResPage p c = psd.getResPage p c) ∧
      ∃ desc, psd.getResPagesDescriptor cfg c = .ok desc ∧
        psd'.getResPagesDescriptor cfg c = .ok desc) ∧
    (∀ p c₁ c₂ val₁ val₂, (⟨p, c₁⟩, val₁) ∈ psd'.pages → (⟨p, c₂⟩, val₂) ∈ psd'.pages →
      c₁ ≤ m → c₂ ≤ m → c₁ = c₂) ∧
    ∀ c desc, 1 ≤ c → c ≤ psd.lastStoredCheckpoint → psd.getResPagesDescriptor cfg c = .ok desc →
      ∀ p < cfg.numberOfReservedPages, ∃ v, psd.getResPage p c = .ok v ∧
        desc[p]? = some ⟨p, v.1, v.2.pageDigest⟩ := by
  refine ⟨_, deleteCovered_returns (fun e he => ⟨(hpages e he).1, (hpages e he).2.2⟩)
    fun p hp => ?_, ?_⟩
  · obtain ⟨c, val, -, hmem⟩ := hall p hp
    exact ⟨c, val, hmem⟩
  have hzero : ∀ p, version psd.pages p 0 = none := fun p =>
    version_eq_none_iff.2 fun c val hmem => (hpages _ hmem).2.1
  have hbehind : ∀ c, version psd.pages cfg.numberOfReservedPages c = none := fun c =>
    version_eq_none_iff.2 fun c' val hmem => absurd (hpages _ hmem).1 (lt_irrefl _)
  have hsome : ∀ c, m ≤ c → ∀ p < cfg.numberOfReservedPages,
      (version psd.pages p c).isSome = true := by
    intro c hc p hp
    obtain ⟨c', val, hle, hmem⟩ := hall p hp
    rw [Option.isSome_iff_ne_none]
    intro hnone
    have := version_eq_none_iff.1 hnone c' val hmem
    omega
  have hversion : ∀ c, m ≤ c → ∀ p,
      version (if m ≤ 1 then psd else { psd with pages := uncovered m psd.pages }).pages p c =
        version psd.pages p c := by
    intro c hc p
    split_ifs
    · rfl
    · exact version_uncovered hc
  refine ⟨fun c hc => ⟨fun p => ?_, descriptorAt cfg.numberOfReservedPages psd.pages c, ?_, ?_⟩,
    fun p c₁ c₂ val₁ val₂ h₁ h₂ hle₁ hle₂ => ?_, fun c desc hpos hlast hdesc p hp => ?_⟩
  · rw [getResPage_eq, getResPage_eq, hversion c hc]
    split_ifs <;> rfl
  · exact getResPagesDescriptor_eq (fun _ => hsome c hc) (fun _ => hbehind c) fun _ p _ => hzero p
  · rw [getResPagesDescriptor_eq (fun _ p hp => ?_) (fun _ => ?_) fun hc0 p _ => ?_]
    · simp only [descriptorAt, hversion c hc]
    · rw [hversion c hc]
      exact hsome c hc p hp
    · rw [hversion c hc]
      exact hbehind c
    · rw [← hc0, hversion c hc, hc0]
      exact hzero p
  · split_ifs at h₁ h₂
    · have := (hpages _ h₁).2.1
      have := (hpages _ h₂).2.1
      dsimp only at *
      omega
    · obtain ⟨hmem₁, hnewest₁⟩ := (mem_uncovered_iff _).1 h₁
      obtain ⟨hmem₂, hnewest₂⟩ := (mem_uncovered_iff _).1 h₂
      exact le_antisymm (hnewest₂ hle₂ _ hmem₁ rfl hle₁) (hnewest₁ hle₁ _ hmem₂ rfl hle₂)
  · obtain ⟨hfull, hnone⟩ := versions_of_getResPagesDescriptor hpos hdesc
    obtain ⟨v, hv⟩ := Option.isSome_iff_exists.1 (hfull p hp)
    rw [getResPagesDescriptor_eq (fun _ => hfull) (fun _ => hnone) fun hc0 => by omega] at hdesc
    refine ⟨v, getResPage_of_version hlast hv, ?_⟩
    rw [← Except.ok.inj hdesc, descriptorAt, List.getElem?_map, List.getElem?_range hp,
      Option.map_some, hv]
    rfl

/-- A store with the given labels of versions of the two pages. -/
def storeOf (keys : List ResPageKey) : InMemoryDataStore where
  lastStoredCheckpoint := 3
  pages := keys.foldl (fun pages key => pages.insert key ⟨1, Page.padded []⟩) .empty

theorem mem_storeOf {keys : List ResPageKey} {e : ResPageKey × ResPageVal} :
    e ∈ (storeOf keys).pages ↔ e.1 ∈ keys ∧ e.2 = ⟨1, Page.padded []⟩ := by
  induction keys using List.reverseRecOn with
  | nil => simp [storeOf]
  | append_singleton keys key ih =>
    have hpages : (storeOf (keys ++ [key])).pages =
        (storeOf keys).pages.insert key ⟨1, Page.padded []⟩ := by
      simp [storeOf]
    rw [hpages, mem_insert_iff, ih, Prod.ext_iff]
    by_cases hkey : e.1 = key <;> simp [hkey]

/-- Page 0 has three versions, page 1 has one. -/
theorem deleteCovered_invisible_four :
    ∃ psd', (storeOf [⟨0, 1⟩, ⟨0, 2⟩, ⟨0, 3⟩, ⟨1, 2⟩]).deleteCoveredResPageInSmallerCheckpoints
        exampleConfig 2 = .ok psd' ∧
      psd'.getResPage 0 2 = (storeOf [⟨0, 1⟩, ⟨0, 2⟩, ⟨0, 3⟩, ⟨1, 2⟩]).getResPage 0 2 := by
  have hkeys : ∀ key ∈ [(⟨0, 1⟩ : ResPageKey), ⟨0, 2⟩, ⟨0, 3⟩, ⟨1, 2⟩],
      key.pageId < 2 ∧ 1 ≤ key.checkpoint ∧
        key.checkpoint ≤ 2 + exampleConfig.maxNumOfStoredCheckpoints := by decide
  have htwo : ∀ p < 2, (⟨p, 2⟩ : ResPageKey) ∈ [⟨0, 1⟩, ⟨0, 2⟩, ⟨0, 3⟩, ⟨1, 2⟩] := by decide
  obtain ⟨psd', hdelete, hsame, -⟩ := @deleteCovered_invisible exampleConfig _ 2
    (fun e he => hkeys e.1 (mem_storeOf.1 he).1)
    (fun p hp => ⟨2, _, le_refl 2, mem_storeOf.2 ⟨htwo p hp, rfl⟩⟩)
  exact ⟨psd', hdelete, (hsame 2 (le_refl 2)).1 0⟩

/-- Where a version is labelled 0, two versions up to checkpoint 1 stay, and the descriptor of
    checkpoint 0 does not have the digest that is read. Where a page has too many versions above `m`,
    the deletion fails. -/
theorem deleteCovered_keeps_zero :
    (∀ e ∈ (storeOf [⟨0, 0⟩, ⟨0, 1⟩, ⟨1, 0⟩]).pages, e.1.pageId < 2) ∧
    (∀ p < 2, (⟨p, 0⟩, ⟨1, Page.padded []⟩) ∈ (storeOf [⟨0, 0⟩, ⟨0, 1⟩, ⟨1, 0⟩]).pages) ∧
    (∃ psd', (storeOf [⟨0, 0⟩, ⟨0, 1⟩, ⟨1, 0⟩]).deleteCoveredResPageInSmallerCheckpoints
        exampleConfig 1 = .ok psd' ∧
      (⟨0, 0⟩, ⟨1, Page.padded []⟩) ∈ psd'.pages ∧ (⟨0, 1⟩, ⟨1, Page.padded []⟩) ∈ psd'.pages) ∧
    (storeOf [⟨0, 0⟩, ⟨0, 1⟩, ⟨1, 0⟩]).getResPagesDescriptor exampleConfig 0 =
      .ok [⟨0, 0, 0⟩, ⟨1, 0, 0⟩] ∧
    (storeOf [⟨0, 0⟩, ⟨0, 1⟩, ⟨1, 0⟩]).getResPage 0 0 = .ok (0, ⟨1, Page.padded []⟩) ∧
    ∀ psd', (storeOf (⟨1, 2⟩ :: (List.range 9).map
      fun k => ⟨0, k + 2⟩)).deleteCoveredResPageInSmallerCheckpoints exampleConfig 2 ≠ .ok psd' := by
  have hkeys : ∀ key ∈ [(⟨0, 0⟩ : ResPageKey), ⟨0, 1⟩, ⟨1, 0⟩], key.pageId < 2 := by decide
  refine ⟨fun e he => hkeys e.1 (mem_storeOf.1 he).1, fun p hp => ?_,
    ⟨_, rfl, mem_storeOf.2 ⟨by decide, rfl⟩, mem_storeOf.2 ⟨by decide, rfl⟩⟩, rfl, ?_, ?_⟩
  · refine mem_storeOf.2 ⟨?_, rfl⟩
    revert p
    decide
  · refine getResPage_of_version (by decide) (version_eq_some_iff.2
      ⟨mem_storeOf.2 ⟨by decide, rfl⟩, le_refl 0, fun c val _ hc => hc⟩)
  · intro psd' hdelete
    have hfails : ((storeOf (⟨1, 2⟩ :: (List.range 9).map
        fun k => ⟨0, k + 2⟩)).deleteCoveredResPageInSmallerCheckpoints
          exampleConfig 2).toOption.isSome = false := by decide +kernel
    rw [hdelete] at hfails
    cases hfails

end ConcordBft.BCStateTran
