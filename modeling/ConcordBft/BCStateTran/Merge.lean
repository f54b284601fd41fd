import ConcordBft.BCStateTran.Layout
import ConcordBft.BCStateTran.ReservedPages

set_option autoImplicit false

/-! # Accepted virtual blocks

The elements of a virtual block are merged with the descriptor of the requester's last checkpoint, and
the digest of the result must be the certified one. The merge ends after the last reserved page, so
elements behind it are not looked at, but they are stored with the others. -/

namespace ConcordBft.BCStateTran

open Checked InMemoryDataStore List

variable {cfg : Config} {psd psd' : InMemoryDataStore} {vblock : Bytes} {c k p : ℕ}
  {es : List ElementOfVirtualBlock} {desc : ResPagesDescriptor} {e : ElementOfVirtualBlock}
  {d : SingleResPageDesc}

/-! ## Merging -/

/-- The descriptor of a page after the updates. -/
def merged (es : List ElementOfVirtualBlock) (d : SingleResPageDesc) : SingleResPageDesc :=
  match es.find? fun e => e.pageId == d.pageId with
  | some e => ⟨d.pageId, e.checkpointNumber, e.pageDigest⟩
  | none => d

theorem merged_nil : merged [] = id := rfl

theorem merged_of_not_mem (h : ∀ e ∈ es, e.pageId ≠ d.pageId) : merged es d = d := by
  have hnone : es.find? (fun e => e.pageId == d.pageId) = none := by
    simpa using h
  rw [merged, hnone]

/-- The update of a page is the only one with its number. -/
theorem find?_pageId (hord : es.Pairwise fun a b => a.pageId < b.pageId) (he : e ∈ es) :
    (es.find? fun e' => e'.pageId == e.pageId) = some e := by
  induction es with
  | nil => simp at he
  | cons a rest ih =>
    obtain ⟨hfirst, hrest⟩ := pairwise_cons.1 hord
    rcases mem_cons.1 he with rfl | he'
    · simp
    · have hne : a.pageId ≠ e.pageId := ne_of_lt (hfirst e he')
      rw [find?_cons_of_neg (by simpa using hne)]
      exact ih hrest he'

theorem merged_of_mem (hord : es.Pairwise fun a b => a.pageId < b.pageId) (he : e ∈ es)
    (hid : d.pageId = e.pageId) : merged es d = ⟨d.pageId, e.checkpointNumber, e.pageDigest⟩ := by
  rw [merged, hid, find?_pageId hord he]

theorem merged_cons_of_lt (hlt : e.pageId < d.pageId) : merged (e :: es) d = merged es d := by
  rw [merged, merged, find?_cons_of_neg (by simpa using hlt.ne)]

/-- The loop computes the merge of the pages from `i` on. -/
theorem mergeUpdates_eq {i : ℕ} (hids : desc.map (·.pageId) = List.range' i desc.length)
    (hle : ∀ d ∈ desc, d.relevantCheckpoint ≤ k) (hord : es.Pairwise fun a b => a.pageId < b.pageId)
    (hge : ∀ e ∈ es, i ≤ e.pageId) : mergeUpdates k i desc es = .ok (desc.map (merged es)) := by
  induction desc generalizing i es with
  | nil => cases es <;> rfl
  | cons d rest ih =>
    simp only [map_cons, length_cons, range'_succ, cons.injEq] at hids
    obtain ⟨hd, hrest⟩ := hids
    have hgt : ∀ d' ∈ rest, i < d'.pageId := by
      intro d' hd'
      have hmem : d'.pageId ∈ range' (i + 1) rest.length :=
        hrest ▸ mem_map_of_mem hd'
      have := (mem_range'_1.1 hmem).1
      omega
    have hle' : ∀ d' ∈ rest, d'.relevantCheckpoint ≤ k := fun d' hd' =>
      hle d' (mem_cons_of_mem d hd')
    cases es with
    | nil =>
      rw [merged_nil, map_id]
      rfl
    | cons e es =>
      obtain ⟨hfirst, hes⟩ := pairwise_cons.1 hord
      simp only [mergeUpdates, Assert, require_of hd, require_of (hle d mem_cons_self)]
      by_cases heq : i = e.pageId
      · have hge' : ∀ e' ∈ es, i + 1 ≤ e'.pageId := fun e' he' => by
          have := hfirst e' he'
          omega
        have hskip : rest.map (merged es) = rest.map (merged (e :: es)) := by
          refine map_congr_left fun d' hd' => (merged_cons_of_lt ?_).symm
          have := hgt d' hd'
          omega
        rw [if_pos heq, ih hrest hle' hes hge', hskip, map_cons,
          merged_of_mem hord mem_cons_self (hd.trans heq)]
        rfl
      · have hlt : i < e.pageId := by
          have := hge e mem_cons_self
          omega
        have hge' : ∀ e' ∈ e :: es, i + 1 ≤ e'.pageId := by
          intro e' he'
          rcases mem_cons.1 he' with rfl | he''
          · omega
          · have := hfirst e' he''
            omega
        have hself : merged (e :: es) d = d := by
          refine merged_of_not_mem fun e' he' => ?_
          have := hge' e' he'
          omega
        rw [if_neg heq, ih hrest hle' hord hge', map_cons, hself]
        rfl

/-! ## Accepted blocks -/

theorem map_pageId_descriptorAt (n : ℕ) (pages : OrderedMap ResPageKey ResPageVal) (c : ℕ) :
    (descriptorAt n pages c).map (·.pageId) = List.range n := by
  have hid : ∀ p, (describe p (version pages p c)).pageId = p := by
    intro p
    cases version pages p c <;> rfl
  simp [descriptorAt, Function.comp_def, hid]

theorem label_descriptorAt {n : ℕ} :
    ∀ d ∈ descriptorAt n psd.pages c, d.relevantCheckpoint ≤ c := by
  intro d hd
  obtain ⟨p, -, rfl⟩ := mem_map.1 hd
  cases hv : version psd.pages p c with
  | none => exact Nat.zero_le c
  | some v => exact (version_eq_some_iff.1 hv).le

/-- What the checks of a virtual block establish. -/
structure Accepted (cfg : Config) (psd : InMemoryDataStore) (expected : STDigest)
    (vblock : Bytes) : Prop where
  structured : WellStructured vblock
  last_eq : psd.lastStoredCheckpoint = lastCheckpointKnownToRequester vblock
  digest_eq : cfg.digestOfPagesDescriptor ((descriptorAt cfg.numberOfReservedPages psd.pages
    psd.lastStoredCheckpoint).map (merged (elementsOf vblock))) = expected
  pages_eq : ∀ e ∈ elementsOf vblock,
    cfg.digestOfPage e.pageId e.checkpointNumber e.page = e.pageDigest

theorem checkPages_meets (hpos : ∀ e ∈ es, 0 < e.checkpointNumber) :
    Meets (fun _ => False) (fun b => b = true ↔
        ∀ e ∈ es, cfg.digestOfPage e.pageId e.checkpointNumber e.page = e.pageDigest)
      (checkPages cfg es) := by
  induction es with
  | nil => exact meets_pure (by simp)
  | cons e rest ih =>
    apply meets_require_bind
    · intro hne
      exact absurd (hpos e mem_cons_self) hne
    intro _
    apply meets_ite
    · intro hne
      exact meets_pure (by simp [hne])
    · intro heq
      refine (ih fun e' he' => hpos e' (mem_cons_of_mem e he')).mono fun b hb => ?_
      have heq' : cfg.digestOfPage e.pageId e.checkpointNumber e.page = e.pageDigest := by
        simpa using heq
      simp [hb, heq']

/-- **The checks of a virtual block** fail no assertion, whatever its bytes are. -/
theorem checkVirtualBlockOfResPages_meets (ht : Tidy cfg psd) (expected : STDigest)
    (vblock : Bytes) :
    Meets (fun _ => False) (fun b => b = true ↔ Accepted cfg psd expected vblock)
      (checkVirtualBlockOfResPages cfg psd expected vblock) := by
  have hlast : psd.hasCheckpointDesc psd.lastStoredCheckpoint = true ∨
      psd.lastStoredCheckpoint = 0 := by
    rcases Nat.eq_zero_or_pos psd.lastStoredCheckpoint with hzero | hpos
    · exact Or.inr hzero
    · exact Or.inl (ht.last_desc hpos)
  unfold checkVirtualBlockOfResPages
  apply meets_ite
  · intro hbad
    refine meets_pure ⟨nofun, fun h => ?_⟩
    rw [checkStructureOfVirtualBlock_iff.2 h.structured] at hbad
    simp at hbad
  intro hgood
  have hs : WellStructured vblock := checkStructureOfVirtualBlock_iff.1 (by simpa using hgood)
  apply meets_ite
  · intro hne
    exact meets_pure ⟨nofun, fun h => absurd h.last_eq hne⟩
  intro heq
  have heq' : psd.lastStoredCheckpoint = lastCheckpointKnownToRequester vblock := by
    simpa using heq
  rw [← heq']
  apply meets_ok_bind (ht.getResPagesDescriptor hlast)
  apply meets_require_bind
  · intro hne
    exact absurd (by simp [descriptorAt]) hne
  intro _
  have hids : (descriptorAt cfg.numberOfReservedPages psd.pages psd.lastStoredCheckpoint).map
      (·.pageId) = range' 0 (descriptorAt cfg.numberOfReservedPages psd.pages
        psd.lastStoredCheckpoint).length := by
    rw [map_pageId_descriptorAt, range_eq_range']
    simp [descriptorAt]
  apply meets_ok_bind (mergeUpdates_eq hids label_descriptorAt hs.ordered fun e _ => Nat.zero_le _)
  apply meets_ite
  · intro hne
    exact meets_pure ⟨nofun, fun h => absurd h.digest_eq hne⟩
  intro hdigest
  have hpos : ∀ e ∈ elementsOf vblock, 0 < e.checkpointNumber := fun e he =>
    Nat.zero_lt_of_lt (hs.newer e he)
  refine (checkPages_meets hpos).mono fun b hb => ?_
  rw [hb]
  constructor
  · intro hpages
    exact ⟨hs, heq', by simpa using hdigest, hpages⟩
  · intro h
    exact h.pages_eq

theorem accepted_iff (ht : Tidy cfg psd) {expected : STDigest} :
    checkVirtualBlockOfResPages cfg psd expected vblock = .ok true ↔
      Accepted cfg psd expected vblock := by
  obtain ⟨b, hb, hiff⟩ := (checkVirtualBlockOfResPages_meets ht expected vblock).returns
  rw [← hiff, hb]
  simp

/-! ## Storing the elements -/

/-- The version that an element becomes. -/
def addedVersion (e : ElementOfVirtualBlock) : ResPageKey × ResPageVal :=
  (⟨e.pageId, e.checkpointNumber⟩, ⟨e.pageDigest, Page.padded e.page⟩)

/-- The versions after some elements have been stored. -/
def WithElements (psd : InMemoryDataStore) (es : List ElementOfVirtualBlock)
    (pages : OrderedMap ResPageKey ResPageVal) : Prop :=
  ∀ a, a ∈ pages ↔ a ∈ psd.pages ∨ ∃ e ∈ es, a = addedVersion e

/-- All elements can be stored if they are newer than what is stored. -/
theorem setResPages_meets (hord : es.Pairwise fun a b => a.pageId < b.pageId)
    (hnew : ∀ e ∈ es, ∀ a ∈ psd.pages, a.1.checkpoint < e.checkpointNumber) :
    Meets (fun _ => False) (fun psd' => ∃ pages, WithElements psd es pages ∧
        psd' = { psd with pages := pages })
      (setResPages psd es) := by
  refine meets_foldlM (fun done (s : InMemoryDataStore) => ∃ pages, WithElements psd done pages ∧
    s = { psd with pages := pages }) ?_ ?_
  · exact ⟨psd.pages, fun a => by simp, rfl⟩
  rintro done e rest _ hes ⟨pages, hpages, rfl⟩
  rw [hes] at hord hnew
  have hdone : ∀ e' ∈ done, e'.pageId < e.pageId := fun e' he' =>
    (pairwise_append.1 hord).2.2 e' he' e mem_cons_self
  have hfresh : pages.contains ⟨e.pageId, e.checkpointNumber⟩ = false := by
    refine OrderedMap.contains_eq_false_iff.2 fun v hv => ?_
    rcases (hpages _).1 hv with hold | ⟨e', he', heq⟩
    · exact absurd (hnew e (by simp) _ hold) (lt_irrefl _)
    · have hid : e.pageId = e'.pageId := congrArg (fun a => a.1.pageId) heq
      have := hdone e' he'
      omega
  have hset : InMemoryDataStore.setResPage { psd with pages := pages } e.pageId
      e.checkpointNumber e.pageDigest e.page = .ok { psd with
        pages := pages.insert ⟨e.pageId, e.checkpointNumber⟩
          ⟨e.pageDigest, Page.padded e.page⟩ } := by
    simp only [setResPage, addVersion, Assert, require_of hfresh]
    rfl
  refine meets_of_eq_ok hset ⟨_, fun a => ?_, rfl⟩
  simp only [OrderedMap.mem_insert_iff, mem_append, mem_singleton]
  constructor
  · rintro (rfl | ⟨hold, -⟩)
    · exact Or.inr ⟨e, Or.inr rfl, rfl⟩
    · rcases (hpages a).1 hold with hold | ⟨e', he', heq⟩
      · exact Or.inl hold
      · exact Or.inr ⟨e', Or.inl he', heq⟩
  · rintro (hold | ⟨e', he' | rfl, rfl⟩)
    · refine Or.inr ⟨(hpages a).2 (Or.inl hold), fun hkey => ?_⟩
      have := hnew e (by simp) a hold
      rw [hkey] at this
      lia
    · refine Or.inr ⟨(hpages _).2 (Or.inr ⟨e', he', rfl⟩), fun hkey => ?_⟩
      have hid : e'.pageId = e.pageId := congrArg ResPageKey.pageId hkey
      have := hdone e' he'
      omega
    · exact Or.inl rfl

/-! ## The certified descriptor -/

/-- A descriptor of all reserved pages at checkpoint `c`, as a correct replica computes it. -/
structure DescribesAllPages (cfg : Config) (c : ℕ) (desc : ResPagesDescriptor) : Prop where
  pageId_eq : desc.map (·.pageId) = List.range cfg.numberOfReservedPages
  label_pos : ∀ d ∈ desc, 0 < d.relevantCheckpoint
  label_le : ∀ d ∈ desc, d.relevantCheckpoint ≤ c

/-- No other descriptor has the digest of this one. -/
def NoCollision (cfg : Config) (desc : ResPagesDescriptor) : Prop :=
  ∀ other, cfg.digestOfPagesDescriptor other = cfg.digestOfPagesDescriptor desc → other = desc

/-- The elements of an accepted block are stored. -/
structure Applied (cfg : Config) (psd : InMemoryDataStore) (c : ℕ) (desc : ResPagesDescriptor)
    (es : List ElementOfVirtualBlock) (pages : OrderedMap ResPageKey ResPageVal) : Prop where
  tidy : Tidy cfg psd
  describes : DescribesAllPages cfg c desc
  last_lt : psd.lastStoredCheckpoint < c
  ordered : es.Pairwise fun a b => a.pageId < b.pageId
  newer : ∀ e ∈ es, psd.lastStoredCheckpoint < e.checkpointNumber
  merged_eq : (descriptorAt cfg.numberOfReservedPages psd.pages
    psd.lastStoredCheckpoint).map (merged es) = desc
  pages_eq : WithElements psd es pages

section Applied

variable {desc : ResPagesDescriptor} {pages : OrderedMap ResPageKey ResPageVal}
  {e : ElementOfVirtualBlock}

theorem Applied.mem_desc (h : Applied cfg psd c desc es pages) (hp : p < cfg.numberOfReservedPages) :
    merged es (describe p (version psd.pages p psd.lastStoredCheckpoint)) ∈ desc := by
  rw [← h.merged_eq]
  exact mem_map_of_mem (mem_map.2 ⟨p, mem_range.2 hp, rfl⟩)

theorem pageId_describe (p : ℕ) (v : Option (ℕ × ResPageVal)) : (describe p v).pageId = p := by
  cases v <;> rfl

section

variable (h : Applied cfg psd c desc es pages)
include h

theorem Applied.label_le (he : e ∈ es) (hp : e.pageId < cfg.numberOfReservedPages) :
    e.checkpointNumber ≤ c := by
  have hmem := h.mem_desc hp
  rw [merged_of_mem h.ordered he (pageId_describe _ _)] at hmem
  exact h.describes.label_le _ hmem

theorem Applied.version_updated (he : e ∈ es) (hp : e.pageId < cfg.numberOfReservedPages) :
    version pages e.pageId c = some (e.checkpointNumber, ⟨e.pageDigest, Page.padded e.page⟩) := by
  refine version_eq_some_iff.2 ⟨(h.pages_eq _).2 (Or.inr ⟨e, he, rfl⟩), h.label_le he hp, ?_⟩
  intro c'' val'' hmem _
  rcases (h.pages_eq _).1 hmem with hold | ⟨e', he', heq⟩
  · have hle := h.tidy.label_le _ hold
    have hlt := h.newer e he
    dsimp only at hle
    omega
  · have hid : e.pageId = e'.pageId := congrArg (fun a => a.1.pageId) heq
    have hlabel : c'' = e'.checkpointNumber := congrArg (fun a => a.1.checkpoint) heq
    have hfind := find?_pageId h.ordered he
    rw [hid, find?_pageId h.ordered he'] at hfind
    rw [hlabel, Option.some.inj hfind]

theorem Applied.version_kept (hp : ∀ e ∈ es, e.pageId ≠ p) :
    version pages p c = version psd.pages p psd.lastStoredCheckpoint := by
  rw [← h.tidy.version_above h.last_lt.le]
  refine version_congr fun c' val _ => ?_
  rw [h.pages_eq]
  constructor
  · rintro (hold | ⟨e, he, heq⟩)
    · exact hold
    · exact absurd (congrArg (fun a => a.1.pageId) heq).symm (hp e he)
  · exact Or.inl

theorem Applied.describe_eq (hp : p < cfg.numberOfReservedPages) :
    describe p (version pages p c) =
      merged es (describe p (version psd.pages p psd.lastStoredCheckpoint)) := by
  by_cases hupdate : ∃ e ∈ es, e.pageId = p
  · obtain ⟨e, he, rfl⟩ := hupdate
    rw [h.version_updated he hp, merged_of_mem h.ordered he (pageId_describe _ _), pageId_describe]
    rfl
  · have hnone : ∀ e ∈ es, e.pageId ≠ p := fun e he hid => hupdate ⟨e, he, hid⟩
    rw [h.version_kept hnone, merged_of_not_mem]
    intro e he
    rw [pageId_describe]
    exact hnone e he

/-- The stored pages have the certified descriptor. -/
theorem Applied.descriptorAt_eq : descriptorAt cfg.numberOfReservedPages pages c = desc := by
  rw [← h.merged_eq, descriptorAt, descriptorAt, map_map]
  refine map_congr_left fun p hp => ?_
  exact h.describe_eq (mem_range.1 hp)

theorem Applied.isSome (hp : p < cfg.numberOfReservedPages) :
    (version pages p c).isSome = true := by
  have hmem := h.mem_desc hp
  rw [← h.describe_eq hp] at hmem
  have hpos := h.describes.label_pos _ hmem
  cases hv : version pages p c with
  | none =>
    rw [hv] at hpos
    exact absurd hpos (lt_irrefl 0)
  | some v => rfl

theorem Applied.version_none (hids : ∀ e ∈ es, e.pageId < cfg.numberOfReservedPages) :
    version pages cfg.numberOfReservedPages c = none := by
  rw [h.version_kept fun e he => (hids e he).ne]
  exact h.tidy.version_none (le_refl _)

end

end Applied

/-! ## Applying an accepted block -/

theorem Accepted.merged_eq (hinj : NoCollision cfg desc)
    (h : Accepted cfg psd (cfg.digestOfPagesDescriptor desc) vblock) :
    (descriptorAt cfg.numberOfReservedPages psd.pages psd.lastStoredCheckpoint).map
      (merged (elementsOf vblock)) = desc :=
  hinj _ h.digest_eq

theorem Accepted.applied (ht : Tidy cfg psd) (hdesc : DescribesAllPages cfg c desc)
    (hinj : NoCollision cfg desc) (hlast : psd.lastStoredCheckpoint < c)
    (h : Accepted cfg psd (cfg.digestOfPagesDescriptor desc) vblock) :
    Meets (fun _ => False) (fun psd' => ∃ pages, Applied cfg psd c desc (elementsOf vblock) pages ∧
        psd' = { psd with pages := pages })
      (setResPages psd (elementsOf vblock)) := by
  have hnewer : ∀ e ∈ elementsOf vblock, psd.lastStoredCheckpoint < e.checkpointNumber := by
    intro e he
    rw [h.last_eq]
    exact h.structured.newer e he
  have hset := setResPages_meets h.structured.ordered fun e he a ha =>
    (ht.label_le a ha).trans_lt (hnewer e he)
  refine hset.mono ?_
  rintro _ ⟨pages, hpages, rfl⟩
  exact ⟨pages, ⟨ht, hdesc, hlast, h.structured.ordered, hnewer, h.merged_eq hinj, hpages⟩, rfl⟩

theorem Applied.getResPagesDescriptor {pages : OrderedMap ResPageKey ResPageVal}
    (h : Applied cfg psd c desc es pages) (hids : ∀ e ∈ es, e.pageId < cfg.numberOfReservedPages)
    (hpages : psd'.pages = pages) : psd'.getResPagesDescriptor cfg c = .ok desc := by
  rw [← h.descriptorAt_eq, ← hpages]
  refine getResPagesDescriptor_eq (fun _ p hp => ?_) (fun _ => ?_) fun hzero => ?_
  · rw [hpages]
    exact h.isSome hp
  · rw [hpages]
    exact h.version_none hids
  · have := h.last_lt
    omega

theorem pageId_lt_of_getLast {n : ℕ} (hord : es.Pairwise fun a b => a.pageId < b.pageId)
    (hlast : ∀ e ∈ es.getLast?, e.pageId < n) : ∀ e ∈ es, e.pageId < n := by
  intro e he
  have hne : es ≠ [] := ne_nil_of_mem he
  have hend : (es.getLast hne).pageId < n := hlast _ (getLast?_eq_some_getLast hne)
  rw [← dropLast_append_getLast hne] at he hord
  rcases mem_append.1 he with hfront | hback
  · exact ((pairwise_append.1 hord).2.2 e hfront _ (mem_singleton.2 rfl)).trans hend
  · rw [mem_singleton.1 hback]
    exact hend

/-- **An accepted block carries real pages only** exactly if its last element does. Then all its
    elements can be stored, and the descriptor of the checkpoint is the certified one. -/
theorem accepted_carries_real_pages_iff {desc : ResPagesDescriptor} (ht : Tidy cfg psd)
    (hdesc : DescribesAllPages cfg c desc) (hinj : NoCollision cfg desc)
    (hlast : psd.lastStoredCheckpoint < c)
    (hcheck : checkVirtualBlockOfResPages cfg psd (cfg.digestOfPagesDescriptor desc) vblock =
      .ok true) :
    ((∀ e ∈ elementsOf vblock, e.pageId < cfg.numberOfReservedPages) ∧
      ∃ psd', setResPages psd (elementsOf vblock) = .ok psd' ∧
        psd'.getResPagesDescriptor cfg c = .ok desc) ↔
      ∀ e ∈ (elementsOf vblock).getLast?, e.pageId < cfg.numberOfReservedPages := by
  have hacc := (accepted_iff ht).1 hcheck
  constructor
  · rintro ⟨hids, -⟩ e he
    exact hids e (mem_of_getLast? he)
  · intro hend
    have hids := pageId_lt_of_getLast hacc.structured.ordered hend
    obtain ⟨psd', hset, pages, happlied, rfl⟩ := (hacc.applied ht hdesc hinj hlast).returns
    exact ⟨hids, _, hset, happlied.getResPagesDescriptor hids rfl⟩

/-! ## The start and the end of a transfer -/

theorem uniqueMsgSeqNum_psd {env : Env} {st st' : BCStateTran} {n : ℕ}
    (h : st.uniqueMsgSeqNum env = .ok (st', n)) : st'.psd = st.psd := by
  obtain ⟨-, h⟩ := require_bind_eq_ok h
  obtain ⟨rfl, -⟩ := Prod.mk.inj (Except.ok.inj h)
  split_ifs <;> rfl

theorem Tidy.deleteAllPendingPages (ht : Tidy cfg psd) :
    Tidy cfg { psd.deleteAllPendingPages with fetching := true } :=
  { ht with
    pending_lt := fun e he => absurd he (OrderedMap.not_mem_empty e)
    filled := nofun
    fetching_pending := fun _ => OrderedMap.not_mem_empty }

/-- **The start of a transfer** keeps the invariant: the pending pages are deleted. -/
theorem startCollectingState_tidy {env : Env} {st st' : BCStateTran} (ht : Tidy cfg st.psd)
    (h : st.startCollectingState env = .ok st') : Tidy cfg st'.psd ∧ st'.isFetching = true := by
  unfold startCollectingState sendAskForCheckpointSummariesMsg at h
  obtain ⟨-, h⟩ := require_bind_eq_ok h
  obtain ⟨-, -, h⟩ := bind_eq_ok h
  dsimp only at h
  obtain ⟨fs, -, h⟩ := bind_eq_ok h
  obtain ⟨-, h⟩ := require_bind_eq_ok h
  obtain ⟨⟨st₁, n⟩, hunique, h⟩ := bind_eq_ok h
  have hpsd : st'.psd = { st.psd.deleteAllPendingPages with fetching := true } := by
    rw [← Except.ok.inj h]
    exact uniqueMsgSeqNum_psd hunique
  rw [isFetching, hpsd]
  exact ⟨ht.deleteAllPendingPages, rfl⟩

/-- The oldest checkpoint to keep is not above the last one. -/
theorem firstDescFrom_bounds {last start : ℕ} (h : start ≤ last) (fuel : ℕ) :
    start ≤ firstDescFrom psd last fuel start ∧ firstDescFrom psd last fuel start ≤ last := by
  induction fuel generalizing start with
  | zero => exact ⟨le_refl _, h⟩
  | succ fuel ih =>
    rw [firstDescFrom]
    split_ifs with hlt
    · obtain ⟨hge, hle⟩ := @ih (start + 1) hlt.1
      exact ⟨(Nat.le_succ start).trans hge, hle⟩
    · exact ⟨le_refl _, h⟩

theorem Page.padded_of_length {page : Bytes} (h : page.length = kSizeOfReservedPage) :
    (Page.padded page).1 = page := by
  simp [Page.padded, ← h]

/-- The versions of a store to which the elements of an accepted block have been added. -/
theorem Applied.pages_ok {pages : OrderedMap ResPageKey ResPageVal}
    (h : Applied cfg psd c desc es pages) (hids : ∀ e ∈ es, e.pageId < cfg.numberOfReservedPages)
    (hlength : ∀ e ∈ es, e.page.length = kSizeOfReservedPage)
    (hdigest : ∀ e ∈ es, cfg.digestOfPage e.pageId e.checkpointNumber e.page = e.pageDigest)
    {a : ResPageKey × ResPageVal} (ha : a ∈ pages) :
    a.1.pageId < cfg.numberOfReservedPages ∧ 0 < a.1.checkpoint ∧ a.1.checkpoint ≤ c ∧
      a.2.pageDigest = cfg.digestOfPage a.1.pageId a.1.checkpoint a.2.page.1 := by
  rcases (h.pages_eq a).1 ha with hold | ⟨e, he, rfl⟩
  · exact ⟨h.tidy.pageId_lt a hold, h.tidy.label_pos a hold,
      (h.tidy.label_le a hold).trans h.last_lt.le, h.tidy.digest_eq a hold⟩
  · refine ⟨hids e he, Nat.zero_lt_of_lt (h.newer e he), h.label_le he (hids e he), ?_⟩
    rw [addedVersion, Page.padded_of_length (hlength e he)]
    exact (hdigest e he).symm

/-- The new versions are not seen at the checkpoints that were stored before. -/
theorem Applied.version_of_le {pages : OrderedMap ResPageKey ResPageVal}
    (h : Applied cfg psd c desc es pages) {k : ℕ} (hk : k ≤ psd.lastStoredCheckpoint) (p : ℕ) :
    version pages p k = version psd.pages p k := by
  refine version_congr fun c' val hle => (h.pages_eq _).trans (or_iff_left ?_)
  rintro ⟨e, he, heq⟩
  have hlabel : c' = e.checkpointNumber := congrArg (fun a => a.1.checkpoint) heq
  have hnew := h.newer e he
  omega

/-- What is stored at the end of a transfer, before old checkpoints are deleted. -/
theorem storeCheckpoint_eq {psd' : InMemoryDataStore} {cp : CheckpointDesc}
    (h : storeCheckpoint psd = .ok (psd', cp)) :
    cp = psd.checkpointBeingFetched ∧ psd' = { psd with
      descMap := psd.descMap.insert cp.checkpointNum cp
      lastStoredCheckpoint := cp.checkpointNum
      checkpointBeingFetched := {}
      fetching := false } := by
  obtain ⟨cp', hcp, h⟩ := bind_eq_ok h
  obtain ⟨-, hcp⟩ := require_bind_eq_ok hcp
  obtain rfl := Except.ok.inj hcp
  obtain ⟨-, h⟩ := require_bind_eq_ok h
  obtain ⟨-, h⟩ := require_bind_eq_ok h
  obtain ⟨-, h⟩ := require_bind_eq_ok h
  obtain ⟨psd₁, hset, h⟩ := bind_eq_ok h
  obtain ⟨-, hset⟩ := require_bind_eq_ok hset
  obtain ⟨-, hset⟩ := require_bind_eq_ok hset
  obtain rfl := Except.ok.inj hset
  obtain ⟨rfl, rfl⟩ := Prod.mk.inj (Except.ok.inj h)
  exact ⟨rfl, rfl⟩

theorem deleteCheckpointsBefore_meets
    (hall : ∀ p < cfg.numberOfReservedPages, ∃ c' val, (⟨p, c'⟩, val) ∈ psd.pages)
    (hbounds : ∀ e ∈ psd.pages, e.1.pageId < cfg.numberOfReservedPages ∧ e.1.checkpoint ≤ c)
    (hdesc : ∀ e ∈ psd.descMap, 0 < e.1 ∧ psd.firstStoredCheckpoint ≤ e.1) :
    Meets (fun _ => False) (fun psd' => ∃ m s, m ≤ c ∧ Kept psd m s ∧
        psd' = { s with firstStoredCheckpoint := max psd.firstStoredCheckpoint m })
      (deleteCheckpointsBefore cfg psd c) := by
  have hmax := cfg.maxNumOfStoredCheckpoints_ge
  unfold deleteCheckpointsBefore
  dsimp only
  generalize hm : (if cfg.maxNumOfStoredCheckpoints ≤ c then
    firstDescFrom psd c cfg.maxNumOfStoredCheckpoints (c - cfg.maxNumOfStoredCheckpoints + 1)
    else 0) = m
  have hbetween : m ≤ c ∧ c ≤ m + cfg.maxNumOfStoredCheckpoints := by
    split_ifs at hm with hle
    · obtain ⟨hge, hle'⟩ := @firstDescFrom_bounds psd c (c - cfg.maxNumOfStoredCheckpoints + 1)
        (by omega) cfg.maxNumOfStoredCheckpoints
      omega
    · omega
  refine (kept_of_delete hall hbounds hdesc hbetween.1 hbetween.2).bind fun s hs => ?_
  refine meets_pure ⟨m, s, hbetween.1, hs, ?_⟩
  split_ifs with hlt
  · rw [max_eq_right hlt.le]
  · rw [max_eq_left (not_lt.1 hlt), hs.rest_eq]

/-- **The end of a transfer** keeps the invariant, if the accepted block carries real pages only. -/
theorem completeTransfer_tidy {st st' : BCStateTran} (ht : Tidy cfg st.psd)
    (hfetching : st.psd.fetching = true)
    (hdesc : DescribesAllPages cfg st.psd.checkpointBeingFetched.checkpointNum desc)
    (hdigest : st.psd.checkpointBeingFetched.digestOfResPagesDescriptor =
      cfg.digestOfPagesDescriptor desc) (hinj : NoCollision cfg desc)
    (hlast : st.psd.lastStoredCheckpoint < st.psd.checkpointBeingFetched.checkpointNum)
    (hacc : Accepted cfg st.psd (cfg.digestOfPagesDescriptor desc) vblock)
    (hids : ∀ e ∈ elementsOf vblock, e.pageId < cfg.numberOfReservedPages)
    (h : st.completeTransfer cfg vblock = .ok st') :
    Tidy cfg st'.psd ∧ st'.isFetching = false := by
  obtain ⟨psd₁, hset, h⟩ := bind_eq_ok h
  obtain ⟨pages, happlied, rfl⟩ := (hacc.applied ht hdesc hinj hlast).of_ok hset
  obtain ⟨⟨psd₂, cp⟩, hstore, h⟩ := bind_eq_ok h
  obtain ⟨rfl, rfl⟩ := storeCheckpoint_eq hstore
  obtain ⟨psd₃, hdelete, h⟩ := bind_eq_ok h
  obtain ⟨tmp, -, h⟩ := bind_eq_ok h
  obtain ⟨-, h⟩ := require_bind_eq_ok h
  obtain rfl := Except.ok.inj h
  have hok := fun (a : ResPageKey × ResPageVal) (ha : a ∈ pages) => happlied.pages_ok hids
    (fun e he => hacc.structured.page_length he) hacc.pages_eq ha
  obtain ⟨m, s, hm, hkept, rfl⟩ := (deleteCheckpointsBefore_meets
    (fun p hp => by
      obtain ⟨v, hv⟩ := Option.isSome_iff_exists.1 (happlied.isSome hp)
      exact ⟨v.1, v.2, (version_eq_some_iff.1 hv).mem⟩)
    (fun e he => ⟨(hok e he).1, (hok e he).2.2.1⟩)
    (fun e he => by
      rcases OrderedMap.mem_insert_iff.1 he with rfl | ⟨hold, -⟩
      · exact ⟨Nat.zero_lt_of_lt hlast, ht.first_le.trans hlast.le⟩
      · exact ⟨ht.desc_pos e hold, ht.desc_ge e hold⟩)).of_ok hdelete
  have hversion : ∀ p, version s.pages p st.psd.checkpointBeingFetched.checkpointNum =
      version pages p st.psd.checkpointBeingFetched.checkpointNum := fun p => hkept.version_eq p _ hm
  have hnone : st.psd.pendingPages = .empty := eq_empty_of_not_mem (ht.fetching_pending hfetching)
  have hrenewed : Renewed cfg st.psd st.psd.checkpointBeingFetched.checkpointNum m
      st.psd.checkpointBeingFetched
      { s with firstStoredCheckpoint := max st.psd.firstStoredCheckpoint m } := by
    refine ⟨hlast, hm, ?_, rfl, ?_, rfl, ?_, fun e => ?_,
      fun e he => hok e (hkept.pages_sub e he), fun e he hle p => ?_, fun p hp => ?_⟩
    · rw [hkept.rest_eq]
    · rw [hkept.rest_eq]
      exact hnone
    · rw [hdigest, ← happlied.descriptorAt_eq]
      refine congrArg cfg.digestOfPagesDescriptor (map_congr_left fun p _ => ?_)
      exact congrArg (describe p) (hversion p).symm
    · dsimp only
      rw [hkept.mem_desc, OrderedMap.mem_insert_iff]
      constructor
      · rintro ⟨rfl | ⟨hold, -⟩, hle⟩
        · exact Or.inl rfl
        · exact Or.inr ⟨hold, hle⟩
      · rintro (rfl | ⟨hold, hle⟩)
        · exact ⟨Or.inl rfl, hm⟩
        · exact ⟨Or.inr ⟨hold, ((ht.desc_le e hold).trans_lt hlast).ne⟩, hle⟩
    · exact (hkept.version_eq p e.1 hle).trans (happlied.version_of_le (ht.desc_le e he) p)
    · dsimp only
      rw [hversion p]
      exact happlied.isSome hp
  refine ⟨hrenewed.tidy ht, ?_⟩
  show s.fetching = false
  rw [hkept.rest_eq]

/-! ### Examples -/

/-- The store of a new replica that has started to fetch. -/
def fetchingStore : InMemoryDataStore := { fetching := true }

theorem tidy_fetchingStore (cfg : Config) : Tidy cfg fetchingStore :=
  tidy_of_pending (fun e he => absurd he (OrderedMap.not_mem_empty e)) nofun
    fun _ e => OrderedMap.not_mem_empty e

/-- The two pages of the example were last written at checkpoint 1. -/
def exampleDescriptor : ResPagesDescriptor := [⟨0, 1, 1⟩, ⟨1, 1, 1⟩]

theorem describes_exampleDescriptor : DescribesAllPages exampleConfig 1 exampleDescriptor :=
  ⟨by decide, by decide, by decide⟩

theorem noCollision_exampleDescriptor : NoCollision exampleConfig exampleDescriptor := by
  intro other h
  by_contra hne
  have hother : exampleConfig.digestOfPagesDescriptor other = 2 := if_neg hne
  rw [hother] at h
  exact absurd h (by decide)

/-- Zero pages of the example. -/
def zeroElements (ids : List ℕ) : List ElementOfVirtualBlock :=
  ids.map fun i => ⟨i, 1, 1, List.replicate kSizeOfReservedPage 0⟩

theorem fits_zeroElements {ids : List ℕ} (h : ∀ i ∈ ids, i < 256 ^ 4) :
    ∀ e ∈ zeroElements ids, e.Fits := by
  intro e he
  obtain ⟨i, hi, rfl⟩ := mem_map.1 he
  exact ⟨h i hi, by norm_num, length_replicate⟩

/-- A block whose first elements are the two pages of the example is accepted. -/
theorem accepted_zeroElements {ids : List ℕ} (hids : ∀ i ∈ ids, i < 256 ^ 4)
    (hlength : ids.length < 256 ^ 4) (hord : ids.Pairwise (· < ·)) (h0 : 0 ∈ ids) (h1 : 1 ∈ ids) :
    Accepted exampleConfig fetchingStore 1 (vblockOf 0 (zeroElements ids)) := by
  have hfits := fits_zeroElements hids
  have hlength' : (zeroElements ids).length < 256 ^ 4 := by simpa [zeroElements] using hlength
  have helements := elementsOf_vblockOf hfits 0 hlength'
  have hknown : lastCheckpointKnownToRequester (vblockOf 0 (zeroElements ids)) = 0 :=
    lastCheckpointKnownToRequester_vblockOf (by norm_num)
  have hord' : (zeroElements ids).Pairwise fun a b => a.pageId < b.pageId :=
    pairwise_map.2 hord
  have hmem : ∀ {i}, i ∈ ids → (⟨i, 1, 1, replicate kSizeOfReservedPage 0⟩ :
      ElementOfVirtualBlock) ∈ zeroElements ids := fun hi => mem_map_of_mem hi
  refine ⟨⟨?_, ?_, ?_, ?_⟩, ?_, ?_, ?_⟩
  · rw [getNumberOfElements_vblockOf 0 hlength', vblockOf, length_append, length_headerBytes,
      length_flatMap_bytes hfits]
  · rw [helements]
    exact hord'
  · rw [helements, hknown]
    intro e he
    obtain ⟨i, -, rfl⟩ := mem_map.1 he
    exact Nat.one_pos
  · rw [helements]
    intro e he
    obtain ⟨i, -, rfl⟩ := mem_map.1 he
    rfl
  · rw [hknown]
    rfl
  · rw [helements]
    show exampleConfig.digestOfPagesDescriptor
      [merged (zeroElements ids) ⟨0, 0, Digest.zero⟩, merged (zeroElements ids) ⟨1, 0, Digest.zero⟩]
        = 1
    rw [merged_of_mem hord' (hmem h0) rfl, merged_of_mem hord' (hmem h1) rfl]
    rfl
  · rw [helements]
    intro e he
    obtain ⟨i, -, rfl⟩ := mem_map.1 he
    rfl

/-- The block of the two pages carries real pages only. -/
theorem accepted_carries_real_pages_example :
    ∃ psd', setResPages fetchingStore (elementsOf (vblockOf 0 (zeroElements [0, 1]))) = .ok psd' ∧
      psd'.getResPagesDescriptor exampleConfig 1 = .ok exampleDescriptor := by
  have hacc : Accepted exampleConfig fetchingStore
      (exampleConfig.digestOfPagesDescriptor exampleDescriptor) (vblockOf 0 (zeroElements [0, 1])) :=
    accepted_zeroElements (by decide) (by decide) (by decide) (by decide) (by decide)
  have hiff := accepted_carries_real_pages_iff (tidy_fetchingStore exampleConfig)
    describes_exampleDescriptor noCollision_exampleDescriptor Nat.one_pos
    ((accepted_iff (tidy_fetchingStore exampleConfig)).2 hacc)
  refine (hiff.2 fun e he => ?_).2
  rw [elementsOf_vblockOf (fits_zeroElements (by decide)) 0 (by decide)] at he
  obtain rfl : (⟨1, 1, 1, replicate kSizeOfReservedPage 0⟩ : ElementOfVirtualBlock) = e :=
    Option.some.inj he
  decide

/-- **A block with an element behind the last page is accepted**, and then the descriptor of the
    checkpoint is computed out of range. -/
theorem accepted_element_out_of_range :
    checkVirtualBlockOfResPages exampleConfig fetchingStore
        (exampleConfig.digestOfPagesDescriptor exampleDescriptor)
        (vblockOf 0 (zeroElements [0, 1, 2])) = .ok true ∧
      (∃ e ∈ elementsOf (vblockOf 0 (zeroElements [0, 1, 2])),
        ¬ e.pageId < exampleConfig.numberOfReservedPages) ∧
      (do
        let psd' ← setResPages fetchingStore (elementsOf (vblockOf 0 (zeroElements [0, 1, 2])))
        psd'.getResPagesDescriptor exampleConfig 1) = .error .outOfRange := by
  have hfits : ∀ e ∈ zeroElements [0, 1, 2], e.Fits := fits_zeroElements (by decide)
  have helements := elementsOf_vblockOf hfits 0 (by decide)
  refine ⟨(accepted_iff (tidy_fetchingStore exampleConfig)).2 (accepted_zeroElements
    (by decide) (by decide) (by decide) (by decide) (by decide)), ?_, ?_⟩
  · rw [helements]
    exact ⟨⟨2, 1, 1, replicate kSizeOfReservedPage 0⟩, by simp [zeroElements], by decide⟩
  · rw [helements]
    decide +kernel

end ConcordBft.BCStateTran
