import ConcordBft.BCStateTran.Blocks
import ConcordBft.BCStateTran.Checkpoints
import ConcordBft.BCStateTran.Versions

set_option autoImplicit false

/-! # The invariant of the store, and what a new checkpoint does to it

A checkpoint that is created turns the pending pages into versions. It changes no version of an older
checkpoint, and the versions that are deleted afterwards are not needed by one that is kept. -/

namespace ConcordBft.BCStateTran

open Checked InMemoryDataStore OrderedMap

variable (cfg : Config) (psd : InMemoryDataStore)

/-! ## The invariant -/

/-- What holds in the store of a replica at any time: versions are of reserved pages, with their
    digests, and belong to checkpoints up to the last one; a stored checkpoint has a version of each
    page, and its descriptor has their digest; and the replica has data for each page, unless it is
    fetching. -/
structure Tidy : Prop where
  pageId_lt : ∀ e ∈ psd.pages, e.1.pageId < cfg.numberOfReservedPages
  label_pos : ∀ e ∈ psd.pages, 0 < e.1.checkpoint
  label_le : ∀ e ∈ psd.pages, e.1.checkpoint ≤ psd.lastStoredCheckpoint
  digest_eq : ∀ e ∈ psd.pages,
    e.2.pageDigest = cfg.digestOfPage e.1.pageId e.1.checkpoint e.2.page.1
  pending_lt : ∀ e ∈ psd.pendingPages, e.1 < cfg.numberOfReservedPages
  first_le : psd.firstStoredCheckpoint ≤ psd.lastStoredCheckpoint
  num_eq : ∀ e ∈ psd.descMap, e.2.checkpointNum = e.1
  desc_pos : ∀ e ∈ psd.descMap, 0 < e.1
  desc_ge : ∀ e ∈ psd.descMap, psd.firstStoredCheckpoint ≤ e.1
  desc_le : ∀ e ∈ psd.descMap, e.1 ≤ psd.lastStoredCheckpoint
  desc_digest : ∀ e ∈ psd.descMap, e.2.digestOfResPagesDescriptor =
    cfg.digestOfPagesDescriptor (descriptorAt cfg.numberOfReservedPages psd.pages e.1)
  complete : ∀ e ∈ psd.descMap, ∀ p < cfg.numberOfReservedPages,
    (version psd.pages p e.1).isSome = true
  last_desc : 0 < psd.lastStoredCheckpoint →
    psd.hasCheckpointDesc psd.lastStoredCheckpoint = true
  filled : psd.fetching = false → ∀ p < cfg.numberOfReservedPages,
    psd.hasPendingResPage p = true ∨ 0 < psd.lastStoredCheckpoint
  fetching_pending : psd.fetching = true → ∀ e, e ∉ psd.pendingPages

variable {cfg psd} {psd' : InMemoryDataStore} {c p : ℕ}

theorem hasCheckpointDesc_iff : psd.hasCheckpointDesc c = true ↔ ∃ d, (c, d) ∈ psd.descMap :=
  contains_iff

theorem hasPendingResPage_iff :
    psd.hasPendingResPage p = true ↔ ∃ page, (p, page) ∈ psd.pendingPages :=
  contains_iff

/-- A store without versions and descriptors. -/
theorem tidy_of_pending {pending : OrderedMap ℕ Page} {fetching : Bool}
    (hlt : ∀ e ∈ pending, e.1 < cfg.numberOfReservedPages)
    (hfilled : fetching = false → ∀ p < cfg.numberOfReservedPages, ∃ page, (p, page) ∈ pending)
    (hnone : fetching = true → ∀ e, e ∉ pending) :
    Tidy cfg { pendingPages := pending, fetching := fetching } where
  pageId_lt e he := absurd he (not_mem_empty e)
  label_pos e he := absurd he (not_mem_empty e)
  label_le e he := absurd he (not_mem_empty e)
  digest_eq e he := absurd he (not_mem_empty e)
  pending_lt := hlt
  first_le := le_refl 0
  num_eq e he := absurd he (not_mem_empty e)
  desc_pos e he := absurd he (not_mem_empty e)
  desc_ge e he := absurd he (not_mem_empty e)
  desc_le e he := absurd he (not_mem_empty e)
  desc_digest e he := absurd he (not_mem_empty e)
  complete e he := absurd he (not_mem_empty e)
  last_desc h := absurd h (lt_irrefl 0)
  filled h p hp := Or.inl (hasPendingResPage_iff.2 (hfilled h p hp))
  fetching_pending := hnone

theorem Tidy.isSome_of_hasDesc (h : Tidy cfg psd) (hc : psd.hasCheckpointDesc c = true)
    (hp : p < cfg.numberOfReservedPages) : (version psd.pages p c).isSome = true := by
  obtain ⟨d, hd⟩ := hasCheckpointDesc_iff.1 hc
  exact h.complete _ hd p hp

theorem Tidy.version_none (h : Tidy cfg psd) (hp : cfg.numberOfReservedPages ≤ p) :
    version psd.pages p c = none := by
  refine version_eq_none_iff.2 fun c' val hmem => ?_
  have := h.pageId_lt _ hmem
  dsimp only at this
  omega

theorem Tidy.version_zero (h : Tidy cfg psd) : version psd.pages p 0 = none :=
  version_eq_none_iff.2 fun _ _ hmem => h.label_pos _ hmem

theorem Tidy.version_above (h : Tidy cfg psd) (hc : psd.lastStoredCheckpoint ≤ c) :
    version psd.pages p c = version psd.pages p psd.lastStoredCheckpoint := by
  cases hv : version psd.pages p psd.lastStoredCheckpoint with
  | none =>
    refine version_eq_none_iff.2 fun c' val hmem => ?_
    have hlt := version_eq_none_iff.1 hv c' val hmem
    have hle := h.label_le _ hmem
    dsimp only at hle
    omega
  | some v =>
    obtain ⟨hmem, hle, hnewest⟩ := version_eq_some_iff.1 hv
    exact version_eq_some_iff.2 ⟨hmem, hle.trans hc, fun c'' val'' hmem' _ =>
      hnewest c'' val'' hmem' (h.label_le _ hmem')⟩

/-- The descriptor of a stored checkpoint is that of the versions. -/
theorem Tidy.getResPagesDescriptor (h : Tidy cfg psd)
    (hc : psd.hasCheckpointDesc c = true ∨ c = 0) :
    psd.getResPagesDescriptor cfg c = .ok (descriptorAt cfg.numberOfReservedPages psd.pages c) := by
  refine getResPagesDescriptor_eq (fun hpos p hp => ?_) (fun _ => h.version_none (le_refl _))
    fun hzero p _ => ?_
  · rcases hc with hdesc | rfl
    · exact h.isSome_of_hasDesc hdesc hp
    · omega
  · exact h.version_zero

/-! ## Pending pages become versions -/

/-- The version that a pending page becomes. -/
def newVersion (cfg : Config) (c : ℕ) (e : ℕ × Page) : ResPageKey × ResPageVal :=
  (⟨e.1, c⟩, ⟨cfg.digestOfPage e.1 c e.2.1, e.2⟩)

theorem checkpointPage_eq {page : Page} (hpending : (p, page) ∈ psd.pendingPages)
    (hnew : psd.pages.contains ⟨p, c⟩ = false) :
    checkpointPage cfg c psd p = .ok { psd with
      pages := psd.pages.insert ⟨p, c⟩ ⟨cfg.digestOfPage p c page.1, page⟩
      pendingPages := psd.pendingPages.erase p } := by
  have hfind := find?_eq_some_iff.2 hpending
  have htake : page.1.take kSizeOfReservedPage = page.1 := List.take_of_length_le page.2.le
  simp only [checkpointPage, getPendingResPage, associatePendingResPageWithCheckpoint, addVersion,
    Assert, hfind, htake, require_of hnew]
  rfl

variable (cfg psd c) in
/-- The state of the loop over the pending pages after those in `done`. -/
structure Associated (done : List ℕ) (psd' : InMemoryDataStore) : Prop where
  rest_eq : psd' = { psd with pages := psd'.pages, pendingPages := psd'.pendingPages }
  mem_pending : ∀ e, e ∈ psd'.pendingPages ↔ e ∈ psd.pendingPages ∧ e.1 ∉ done
  mem_pages : ∀ a, a ∈ psd'.pages ↔
    a ∈ psd.pages ∨ ∃ e ∈ psd.pendingPages, e.1 ∈ done ∧ a = newVersion cfg c e

theorem associated_all (hnew : ∀ e ∈ psd.pages, e.1.checkpoint < c) :
    Meets (fun _ => False) (Associated cfg psd c psd.getNumbersOfPendingResPages)
      (psd.getNumbersOfPendingResPages.foldlM (checkpointPage cfg c) psd) := by
  refine meets_foldlM (Associated cfg psd c) ⟨rfl, fun e => by simp, fun a => by simp⟩ ?_
  intro done k rest s hkeys hs
  have hnodup : psd.getNumbersOfPendingResPages.Nodup :=
    List.pairwise_map.2 (psd.pendingPages.sorted.imp fun hlt => ne_of_lt hlt)
  have hnot : k ∉ done := by
    rw [hkeys] at hnodup
    exact fun hk => (List.nodup_append.1 hnodup).2.2 k hk k List.mem_cons_self rfl
  obtain ⟨page, hpage⟩ := mem_keys_iff.1
    (show k ∈ psd.pendingPages.keys by
      show k ∈ psd.getNumbersOfPendingResPages
      simp [hkeys])
  have hfresh : s.pages.contains ⟨k, c⟩ = false := by
    refine contains_eq_false_iff.2 fun v hv => ?_
    rcases (hs.mem_pages _).1 hv with hold | ⟨e, -, hdone, heq⟩
    · exact absurd (hnew _ hold) (lt_irrefl c)
    · have hk : k = e.1 := congrArg (fun a => a.1.pageId) heq
      exact hnot (hk ▸ hdone)
  refine meets_of_eq_ok (checkpointPage_eq ((hs.mem_pending _).2 ⟨hpage, hnot⟩) hfresh) ⟨?_, ?_, ?_⟩
  · have hrest := hs.rest_eq
    rw [hrest]
  · simp only [mem_erase_iff, hs.mem_pending, List.mem_append, List.mem_singleton]
    tauto
  · intro a
    simp only [mem_insert_iff, hs.mem_pages, List.mem_append, List.mem_singleton]
    constructor
    · rintro (rfl | ⟨hold | ⟨e, he, hdone, rfl⟩, -⟩)
      · exact Or.inr ⟨(k, page), hpage, Or.inr rfl, rfl⟩
      · exact Or.inl hold
      · exact Or.inr ⟨e, he, Or.inl hdone, rfl⟩
    · rintro (hold | ⟨e, he, hdone | hk, rfl⟩)
      · refine Or.inr ⟨Or.inl hold, fun heq => ?_⟩
        have := hnew _ hold
        rw [heq] at this
        lia
      · refine Or.inr ⟨Or.inr ⟨e, he, hdone, rfl⟩, fun heq => ?_⟩
        have hk : e.1 = k := congrArg ResPageKey.pageId heq
        exact hnot (hk ▸ hdone)
      · have heq : e = (k, page) := eq_of_mem he hpage hk
        rw [heq]
        exact Or.inl rfl

variable (cfg psd c) in
/-- The versions after the pending pages have become versions of checkpoint `c`. -/
def Checkpointed (pages : OrderedMap ResPageKey ResPageVal) : Prop :=
  ∀ a, a ∈ pages ↔ a ∈ psd.pages ∨ ∃ e ∈ psd.pendingPages, a = newVersion cfg c e

section Checkpointed

variable {pages : OrderedMap ResPageKey ResPageVal}

section

variable (h : Checkpointed cfg psd c pages)
include h

theorem Checkpointed.version_before {c₁ : ℕ} (hlt : c₁ < c) :
    version pages p c₁ = version psd.pages p c₁ := by
  refine version_congr fun c' val hle => ?_
  rw [h]
  constructor
  · rintro (hold | ⟨e, -, heq⟩)
    · exact hold
    · have : c' = c := congrArg (fun a => a.1.checkpoint) heq
      omega
  · exact Or.inl

theorem Checkpointed.version_pending {page : Page} (hpage : (p, page) ∈ psd.pendingPages) :
    version pages p c = some (c, ⟨cfg.digestOfPage p c page.1, page⟩) := by
  refine version_eq_some_iff.2 ⟨(h _).2 (Or.inr ⟨_, hpage, rfl⟩), le_refl c, ?_⟩
  intro c'' val'' _ hle
  exact hle

theorem Checkpointed.version_old (hpage : psd.hasPendingResPage p = false) :
    version pages p c = version psd.pages p c := by
  refine version_congr fun c' val _ => ?_
  rw [h]
  constructor
  · rintro (hold | ⟨e, he, heq⟩)
    · exact hold
    · have hp : p = e.1 := congrArg (fun a => a.1.pageId) heq
      exact absurd (hp ▸ he) (contains_eq_false_iff.1 hpage e.2)
  · exact Or.inl

theorem Checkpointed.isSome (ht : Tidy cfg psd) (hfetch : psd.fetching = false)
    (hc : psd.lastStoredCheckpoint < c) (hp : p < cfg.numberOfReservedPages) :
    (version pages p c).isSome = true := by
  cases hpending : psd.hasPendingResPage p with
  | true =>
    obtain ⟨page, hpage⟩ := hasPendingResPage_iff.1 hpending
    rw [h.version_pending hpage]
    rfl
  | false =>
    rw [h.version_old hpending, ht.version_above hc.le]
    refine ht.isSome_of_hasDesc (ht.last_desc ?_) hp
    rcases ht.filled hfetch p hp with hyes | hpos
    · rw [hyes] at hpending
      simp at hpending
    · exact hpos

theorem Checkpointed.bounds (ht : Tidy cfg psd) (hc : psd.lastStoredCheckpoint < c)
    {e : ResPageKey × ResPageVal} (he : e ∈ pages) :
    e.1.pageId < cfg.numberOfReservedPages ∧ 0 < e.1.checkpoint ∧ e.1.checkpoint ≤ c ∧
      e.2.pageDigest = cfg.digestOfPage e.1.pageId e.1.checkpoint e.2.page.1 := by
  rcases (h e).1 he with hold | ⟨a, ha, rfl⟩
  · exact ⟨ht.pageId_lt e hold, ht.label_pos e hold, (ht.label_le e hold).trans hc.le,
      ht.digest_eq e hold⟩
  · exact ⟨ht.pending_lt a ha, Nat.zero_lt_of_lt hc, le_refl c, rfl⟩

theorem Checkpointed.version_none (ht : Tidy cfg psd) (hc : psd.lastStoredCheckpoint < c) :
    version pages cfg.numberOfReservedPages c = none := by
  refine version_eq_none_iff.2 fun c' val hmem => ?_
  exact absurd (h.bounds ht hc hmem).1 (lt_irrefl _)

end

end Checkpointed

theorem eq_empty_of_not_mem {κ ν : Type} [LinearOrder κ] {m : OrderedMap κ ν} (h : ∀ e, e ∉ m) :
    m = .empty := by
  obtain ⟨entries, sorted⟩ := m
  have hnil : entries = [] := List.eq_nil_iff_forall_not_mem.2 h
  subst hnil
  rfl

/-- All pending pages become versions, and their digest is that of the descriptor. -/
theorem checkpointReservedPages_meets (ht : Tidy cfg psd) (hfetch : psd.fetching = false)
    (hc : psd.lastStoredCheckpoint < c) :
    Meets (fun _ => False) (fun result => ∃ pages, Checkpointed cfg psd c pages ∧
        result = ({ psd with pages := pages, pendingPages := .empty },
          cfg.digestOfPagesDescriptor (descriptorAt cfg.numberOfReservedPages pages c)))
      (checkpointReservedPages cfg psd c) := by
  refine (associated_all fun e he => (ht.label_le e he).trans_lt hc).bind fun s hs => ?_
  have hkey : ∀ e ∈ psd.pendingPages, e.1 ∈ psd.getNumbersOfPendingResPages := fun e he =>
    mem_keys_iff.2 ⟨e.2, he⟩
  have hempty : s.pendingPages = .empty := by
    refine eq_empty_of_not_mem fun e he => ?_
    obtain ⟨hmem, hnot⟩ := (hs.mem_pending e).1 he
    exact hnot (hkey e hmem)
  have hpages : Checkpointed cfg psd c s.pages := by
    intro a
    rw [hs.mem_pages]
    constructor
    · rintro (hold | ⟨e, he, -, heq⟩)
      · exact Or.inl hold
      · exact Or.inr ⟨e, he, heq⟩
    · rintro (hold | ⟨e, he, heq⟩)
      · exact Or.inl hold
      · exact Or.inr ⟨e, he, hkey e he, heq⟩
  have hsize : s.numOfAllPendingResPage = 0 := by
    rw [numOfAllPendingResPage, hempty]
    rfl
  have hdesc : s.getResPagesDescriptor cfg c =
      .ok (descriptorAt cfg.numberOfReservedPages s.pages c) :=
    getResPagesDescriptor_eq (fun _ p hp => hpages.isSome ht hfetch hc hp)
      (fun _ => hpages.version_none ht hc) (fun hzero => by omega)
  refine meets_require_bind (fun hne => absurd hsize hne) fun _ => ?_
  refine meets_ok_bind hdesc ?_
  refine meets_require_bind (fun hne => absurd (by simp [descriptorAt]) hne) fun _ => ?_
  refine meets_pure ⟨s.pages, hpages, ?_⟩
  have hrest := hs.rest_eq
  rw [hempty] at hrest
  rw [hrest]

/-! ## Deleting old checkpoints -/

/-- Versions that no checkpoint from `m` on needs are deleted, with the descriptors before `m`. -/
theorem deleteCovered_eq {m : ℕ} (hm : 2 ≤ m)
    (hall : ∀ p < cfg.numberOfReservedPages, ∃ c' val, (⟨p, c'⟩, val) ∈ psd.pages)
    (hbounds : ∀ e ∈ psd.pages, e.1.pageId < cfg.numberOfReservedPages ∧ e.1.checkpoint ≤ c)
    (hmc : m ≤ c) (hmax : c ≤ m + cfg.maxNumOfStoredCheckpoints) :
    psd.deleteCoveredResPageInSmallerCheckpoints cfg m =
      .ok { psd with pages := uncovered m psd.pages } := by
  have hN := cfg.numberOfReservedPages_ge
  have hhead : psd.pages.entries.head?.map (·.1.pageId) = some 0 := by
    obtain ⟨c', val, hmem⟩ := hall 0 (by omega)
    have hsorted := psd.pages.sorted
    cases hentries : psd.pages.entries with
    | nil =>
      rw [mem_def, hentries] at hmem
      simp at hmem
    | cons e rest =>
      rw [mem_def, hentries] at hmem
      rw [hentries] at hsorted
      have hle : e.1.pageId ≤ 0 := by
        rcases List.mem_cons.1 hmem with heq | hrest
        · rw [← heq]
        · have hlt := (List.pairwise_cons.1 hsorted).1 _ hrest
          rcases ResPageKey.lt_iff.1 hlt with hlt | ⟨heq, -⟩
          · exact le_of_lt hlt
          · exact le_of_eq heq
      simp only [List.head?_cons, Option.map_some, Option.some.injEq]
      omega
  have hleft : cfg.numberOfReservedPages ≤ (uncovered m psd.pages).size := by
    refine le_size fun p hp => ?_
    obtain ⟨c', val, hmem⟩ := hall p hp
    have hsome : (version psd.pages p c).isSome = true := by
      cases hv : version psd.pages p c with
      | none =>
        have := version_eq_none_iff.1 hv c' val hmem
        have := (hbounds _ hmem).2
        dsimp only at this
        omega
      | some v => rfl
    rw [← version_uncovered hmc] at hsome
    obtain ⟨v, hv⟩ := Option.isSome_iff_exists.1 hsome
    exact ⟨v.1, v.2, (version_eq_some_iff.1 hv).mem⟩
  have hsize : (uncovered m psd.pages).size ≤
      cfg.numberOfReservedPages * (cfg.maxNumOfStoredCheckpoints + 1) :=
    (size_uncovered_le hmc hbounds).trans (Nat.mul_le_mul_left _ (by omega))
  have hnot : ¬ m ≤ 1 := by omega
  simp only [deleteCoveredResPageInSmallerCheckpoints, if_neg hnot, Assert,
    require_of (le_size hall), require_of hhead, require_of hleft, require_of hsize]
  rfl

/-- What is left when the checkpoints before `m` have been deleted. If `m` is 0 or 1 there are none,
    and nothing is done. -/
structure Kept (psd : InMemoryDataStore) (m : ℕ) (psd' : InMemoryDataStore) : Prop where
  rest_eq : psd' = { psd with descMap := psd'.descMap, pages := psd'.pages }
  mem_desc : ∀ e, e ∈ psd'.descMap ↔ e ∈ psd.descMap ∧ m ≤ e.1
  pages_sub : ∀ e ∈ psd'.pages, e ∈ psd.pages
  version_eq : ∀ p c', m ≤ c' → version psd'.pages p c' = version psd.pages p c'

section

variable (hall : ∀ p < cfg.numberOfReservedPages, ∃ c' val, (⟨p, c'⟩, val) ∈ psd.pages)
  (hbounds : ∀ e ∈ psd.pages, e.1.pageId < cfg.numberOfReservedPages ∧ e.1.checkpoint ≤ c)
  (hdesc : ∀ e ∈ psd.descMap, 0 < e.1 ∧ psd.firstStoredCheckpoint ≤ e.1)
include hall hbounds hdesc

theorem kept_of_delete {m : ℕ} (hmc : m ≤ c) (hmax : c ≤ m + cfg.maxNumOfStoredCheckpoints) :
    Meets (fun _ => False) (Kept psd m)
      (if 2 ≤ m ∧ psd.firstStoredCheckpoint < m then
        (psd.deleteDescOfSmallerCheckpoints m).deleteCoveredResPageInSmallerCheckpoints cfg m
      else pure psd) := by
  refine meets_ite (fun hm => ?_) fun hm => ?_
  · refine meets_of_eq_ok (deleteCovered_eq hm.1 hall hbounds hmc hmax) ⟨rfl, fun e => ?_, ?_, ?_⟩
    · simp [deleteDescOfSmallerCheckpoints]
    · exact fun e he => ((mem_uncovered_iff e).1 he).1
    · exact fun p c' hc' => version_uncovered hc'
  · refine meets_pure ⟨rfl, fun e => ?_, fun e he => he, fun p c' _ => rfl⟩
    constructor
    · intro he
      have := hdesc e he
      exact ⟨he, by omega⟩
    · exact fun he => he.1

theorem deleteOldCheckpoints_meets :
    Meets (fun _ => False) (fun psd' => ∃ s, Kept psd (c - cfg.maxNumOfStoredCheckpoints) s ∧
        psd' = { s with
          firstStoredCheckpoint :=
            max psd.firstStoredCheckpoint (c - cfg.maxNumOfStoredCheckpoints)
          lastStoredCheckpoint := c })
      (deleteOldCheckpoints cfg psd c) := by
  -- `minRelevantCheckpoint` is a difference of natural numbers in both cases
  have hmin : (if cfg.maxNumOfStoredCheckpoints < c then c - cfg.maxNumOfStoredCheckpoints else 0) =
      c - cfg.maxNumOfStoredCheckpoints := by
    split <;> omega
  unfold deleteOldCheckpoints
  simp only [hmin]
  refine (kept_of_delete hall hbounds hdesc (by omega) (by omega)).bind fun s hs => ?_
  refine meets_pure ⟨s, hs, ?_⟩
  split
  · rename_i hlt
    rw [max_eq_right hlt.le]
  · rename_i hge
    rw [max_eq_left (not_lt.1 hge), hs.rest_eq]

end

/-! ## Creating a checkpoint -/

/-- The descriptor of a new checkpoint. -/
structure DescribesState (cfg : Config) (as : AppState) (pages : OrderedMap ResPageKey ResPageVal)
    (c : ℕ) (desc : CheckpointDesc) : Prop where
  num_eq : desc.checkpointNum = c
  lastBlock_eq : desc.lastBlock = as.getLastReachableBlockNum
  lastBlock_digest : 0 < desc.lastBlock → ∀ block, (desc.lastBlock, block) ∈ as →
    desc.digestOfLastBlock = cfg.digestOfBlock desc.lastBlock block
  pages_digest : desc.digestOfResPagesDescriptor =
    cfg.digestOfPagesDescriptor (descriptorAt cfg.numberOfReservedPages pages c)

theorem createCheckpointDesc_meets {st : BCStateTran} (hw : st.as.Whole) {d : STDigest}
    {pages : OrderedMap ResPageKey ResPageVal}
    (hd : d = cfg.digestOfPagesDescriptor (descriptorAt cfg.numberOfReservedPages pages c)) :
    Meets (fun _ => False) (DescribesState cfg st.as pages c)
      (st.createCheckpointDesc cfg c d) := by
  refine meets_require_bind (fun hne => absurd hw.noHole hne) fun _ => ?_
  by_cases hpos : 0 < st.as.getLastReachableBlockNum
  · obtain ⟨block, hblock, hlen⟩ := hw.exists_block hpos (le_refl _)
    have hdigest : computeDigestOfBlock cfg st.as.getLastReachableBlockNum
        ((st.as.getBlock st.as.getLastReachableBlockNum).getD []) =
        .ok (cfg.digestOfBlock st.as.getLastReachableBlockNum block) := by
      rw [hblock, Option.getD_some]
      simp only [computeDigestOfBlock, Assert, require_of hpos, require_of hlen]
      rfl
    rw [if_pos hpos]
    refine meets_ok_bind hdigest (meets_pure ⟨rfl, rfl, fun _ block' hmem => ?_, hd⟩)
    have heq := eq_of_mem (AppState.getBlock_eq_some_iff.1 hblock) hmem rfl
    exact congrArg (cfg.digestOfBlock _) (congrArg Prod.snd heq)
  · rw [if_neg hpos]
    exact meets_pure ⟨rfl, rfl, fun h => absurd h hpos, hd⟩

/-- The store after checkpoint `c` has been created. -/
structure Created (cfg : Config) (as : AppState) (psd : InMemoryDataStore) (c : ℕ)
    (psd' : InMemoryDataStore) : Prop where
  newer : psd.lastStoredCheckpoint < c
  rest_eq : psd' = { psd with
    lastStoredCheckpoint := c
    firstStoredCheckpoint := max psd.firstStoredCheckpoint (c - cfg.maxNumOfStoredCheckpoints)
    pendingPages := .empty
    descMap := psd'.descMap
    pages := psd'.pages }
  mem_desc : ∃ desc, DescribesState cfg as psd'.pages c desc ∧ ∀ e, e ∈ psd'.descMap ↔
    e = (c, desc) ∨ (e ∈ psd.descMap ∧ c - cfg.maxNumOfStoredCheckpoints ≤ e.1)
  pages_ok : ∀ e ∈ psd'.pages, e.1.pageId < cfg.numberOfReservedPages ∧ 0 < e.1.checkpoint ∧
    e.1.checkpoint ≤ c ∧ e.2.pageDigest = cfg.digestOfPage e.1.pageId e.1.checkpoint e.2.page.1
  version_before : ∀ p c', c - cfg.maxNumOfStoredCheckpoints ≤ c' → c' < c →
    version psd'.pages p c' = version psd.pages p c'
  version_pending : ∀ p page, (p, page) ∈ psd.pendingPages →
    version psd'.pages p c = some (c, ⟨cfg.digestOfPage p c page.1, page⟩)
  version_old : ∀ p, psd.hasPendingResPage p = false →
    version psd'.pages p c = version psd.pages p psd.lastStoredCheckpoint
  isSome : ∀ p < cfg.numberOfReservedPages, (version psd'.pages p c).isSome = true

/-- **A checkpoint can be created** of any number above the last one, unless the replica is fetching,
    and the store is then as described. -/
theorem createCheckpointOfCurrentState_meets {st : BCStateTran} (ht : Tidy cfg st.psd)
    (hw : st.as.Whole) :
    Meets (fun _ => ¬ (st.isFetching = false ∧ st.psd.lastStoredCheckpoint < c))
      (fun st' => ∃ psd', Created cfg st.as st.psd c psd' ∧ st' = { st with psd := psd' })
      (st.createCheckpointOfCurrentState cfg c) := by
  refine meets_require_bind (fun hne h => hne h.1) fun hfetch => ?_
  refine meets_require_bind (fun hne h => hne (Nat.zero_lt_of_lt h.2)) fun _ => ?_
  refine meets_require_bind (fun hne h => hne h.2) fun hc => ?_
  refine Meets.weaken ?_ (fun _ => False.elim)
  refine (checkpointReservedPages_meets ht hfetch hc).bind ?_
  rintro _ ⟨pages, hpages, rfl⟩
  refine (createCheckpointDesc_meets hw rfl).bind fun desc hdesc => ?_
  have hnew : st.psd.descMap.contains c = false := by
    refine contains_eq_false_iff.2 fun d hd => ?_
    have := ht.desc_le _ hd
    omega
  have hset : InMemoryDataStore.setCheckpointDesc
      { st.psd with pages := pages, pendingPages := .empty } c desc = .ok { st.psd with
        pages := pages, pendingPages := .empty, descMap := st.psd.descMap.insert c desc } := by
    simp only [setCheckpointDesc, Assert, require_of hdesc.num_eq.symm, require_of hnew]
    rfl
  refine meets_ok_bind hset ?_
  suffices hcreated : Meets (fun _ => False) (Created cfg st.as st.psd c)
      (deleteOldCheckpoints cfg { st.psd with
        pages := pages
        pendingPages := .empty
        descMap := st.psd.descMap.insert c desc } c) from
    hcreated.bind fun psd' hpsd' => meets_pure ⟨psd', hpsd', rfl⟩
  refine (deleteOldCheckpoints_meets ?_ ?_ ?_).mono ?_
  · intro p hp
    obtain ⟨v, hv⟩ := Option.isSome_iff_exists.1 (hpages.isSome ht hfetch hc hp)
    exact ⟨v.1, v.2, (version_eq_some_iff.1 hv).mem⟩
  · intro e he
    obtain ⟨hid, -, hle, -⟩ := hpages.bounds ht hc he
    exact ⟨hid, hle⟩
  · intro e he
    rcases mem_insert_iff.1 he with rfl | ⟨hold, -⟩
    · exact ⟨Nat.zero_lt_of_lt hc, ht.first_le.trans hc.le⟩
    · exact ⟨ht.desc_pos e hold, ht.desc_ge e hold⟩
  · rintro _ ⟨s, hs, rfl⟩
    refine ⟨hc, ?_, ⟨desc, ?_, fun e => ?_⟩, fun e he => ?_, ?_, ?_, ?_, ?_⟩
    · rw [hs.rest_eq]
    · refine ⟨hdesc.num_eq, hdesc.lastBlock_eq, hdesc.lastBlock_digest, ?_⟩
      rw [hdesc.pages_digest]
      refine congrArg cfg.digestOfPagesDescriptor (List.map_congr_left fun p _ => ?_)
      exact congrArg (describe p) (hs.version_eq p c (by omega)).symm
    · rw [hs.mem_desc, mem_insert_iff]
      constructor
      · rintro ⟨rfl | ⟨hold, -⟩, hle⟩
        · exact Or.inl rfl
        · exact Or.inr ⟨hold, hle⟩
      · rintro (rfl | ⟨hold, hle⟩)
        · simp
        · refine ⟨Or.inr ⟨hold, ?_⟩, hle⟩
          have := ht.desc_le e hold
          omega
    · exact hpages.bounds ht hc (hs.pages_sub e he)
    · intro p c' hle hlt
      exact (hs.version_eq p c' hle).trans (hpages.version_before hlt)
    · intro p page hpage
      exact (hs.version_eq p c (by omega)).trans (hpages.version_pending hpage)
    · intro p hpending
      exact (hs.version_eq p c (by omega)).trans
        ((hpages.version_old hpending).trans (ht.version_above hc.le))
    · intro p hp
      rw [hs.version_eq p c (by omega)]
      exact hpages.isSome ht hfetch hc hp

/-! ## The invariant after a new checkpoint -/

/-- The store after checkpoint `c` has been added and those before `m` have been deleted. -/
structure Renewed (cfg : Config) (psd : InMemoryDataStore) (c m : ℕ) (desc : CheckpointDesc)
    (psd' : InMemoryDataStore) : Prop where
  newer : psd.lastStoredCheckpoint < c
  min_le : m ≤ c
  last_eq : psd'.lastStoredCheckpoint = c
  first_eq : psd'.firstStoredCheckpoint = max psd.firstStoredCheckpoint m
  pending_eq : psd'.pendingPages = .empty
  num_eq : desc.checkpointNum = c
  digest_eq : desc.digestOfResPagesDescriptor =
    cfg.digestOfPagesDescriptor (descriptorAt cfg.numberOfReservedPages psd'.pages c)
  mem_desc : ∀ e, e ∈ psd'.descMap ↔ e = (c, desc) ∨ (e ∈ psd.descMap ∧ m ≤ e.1)
  pages_ok : ∀ e ∈ psd'.pages, e.1.pageId < cfg.numberOfReservedPages ∧ 0 < e.1.checkpoint ∧
    e.1.checkpoint ≤ c ∧ e.2.pageDigest = cfg.digestOfPage e.1.pageId e.1.checkpoint e.2.page.1
  version_eq : ∀ e ∈ psd.descMap, m ≤ e.1 →
    ∀ p, version psd'.pages p e.1 = version psd.pages p e.1
  isSome : ∀ p < cfg.numberOfReservedPages, (version psd'.pages p c).isSome = true

/-- **A new checkpoint keeps the invariant**, whether it was created or fetched. -/
theorem Renewed.tidy {m : ℕ} {desc : CheckpointDesc} (h : Renewed cfg psd c m desc psd')
    (ht : Tidy cfg psd) : Tidy cfg psd' := by
  have hc := h.newer
  have hm := h.min_le
  have hlast := h.last_eq
  have hfirst := h.first_eq
  have hpos : 0 < c := Nat.zero_lt_of_lt hc
  constructor
  · exact fun e he => (h.pages_ok e he).1
  · exact fun e he => (h.pages_ok e he).2.1
  · exact fun e he => hlast ▸ (h.pages_ok e he).2.2.1
  · exact fun e he => (h.pages_ok e he).2.2.2
  · rw [h.pending_eq]
    exact fun e he => absurd he (not_mem_empty e)
  · have := ht.first_le
    omega
  · intro e he
    rcases (h.mem_desc e).1 he with rfl | ⟨he', -⟩
    · exact h.num_eq
    · exact ht.num_eq e he'
  · intro e he
    rcases (h.mem_desc e).1 he with rfl | ⟨he', -⟩
    · exact hpos
    · exact ht.desc_pos e he'
  · intro e he
    rcases (h.mem_desc e).1 he with rfl | ⟨he', hle⟩
    · have := ht.first_le
      omega
    · have := ht.desc_ge e he'
      omega
  · intro e he
    rw [hlast]
    rcases (h.mem_desc e).1 he with rfl | ⟨he', -⟩
    · exact le_refl c
    · exact (ht.desc_le e he').trans hc.le
  · intro e he
    rcases (h.mem_desc e).1 he with rfl | ⟨he', hle⟩
    · exact h.digest_eq
    · rw [ht.desc_digest e he']
      refine congrArg cfg.digestOfPagesDescriptor (List.map_congr_left fun p _ => ?_)
      exact congrArg (describe p) (h.version_eq e he' hle p).symm
  · intro e he p hp
    rcases (h.mem_desc e).1 he with rfl | ⟨he', hle⟩
    · exact h.isSome p hp
    · rw [h.version_eq e he' hle p]
      exact ht.complete e he' p hp
  · intro _
    rw [hlast]
    exact hasCheckpointDesc_iff.2 ⟨desc, (h.mem_desc _).2 (Or.inl rfl)⟩
  · intro _ p _
    rw [hlast]
    exact Or.inr hpos
  · rw [h.pending_eq]
    exact fun _ e => not_mem_empty e

theorem Created.tidy {as : AppState} (h : Created cfg as psd c psd') (ht : Tidy cfg psd) :
    Tidy cfg psd' := by
  obtain ⟨desc, hdesc, hmem⟩ := h.mem_desc
  refine Renewed.tidy ⟨h.newer, Nat.sub_le _ _, ?_, ?_, ?_, hdesc.num_eq, hdesc.pages_digest, hmem,
    h.pages_ok, fun e he hle p => ?_, h.isSome⟩ ht
  · rw [h.rest_eq]
  · rw [h.rest_eq]
  · rw [h.rest_eq]
  · exact h.version_before p e.1 hle ((ht.desc_le e he).trans_lt h.newer)

end ConcordBft.BCStateTran
