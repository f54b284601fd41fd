import ConcordBft.BCStateTran.DataStore
import Mathlib.Order.Interval.Finset.Nat

set_option autoImplicit false

/-! # Versions of reserved pages

The content of a page at a checkpoint is its newest version that is not above the checkpoint. Reading
a page, deleting covered versions and building a descriptor are all described by newest versions. -/

namespace ConcordBft.BCStateTran

open Checked OrderedMap ResPageKey List

/-! ## The order of the versions -/

theorem ResPageKey.le_iff {a b : ResPageKey} :
    a ≤ b ↔ a.pageId < b.pageId ∨ (a.pageId = b.pageId ∧ b.checkpoint ≤ a.checkpoint) :=
  Prod.Lex.toLex_le_toLex

theorem ResPageKey.lt_iff {a b : ResPageKey} :
    a < b ↔ a.pageId < b.pageId ∨ (a.pageId = b.pageId ∧ b.checkpoint < a.checkpoint) :=
  Prod.Lex.toLex_lt_toLex

namespace InMemoryDataStore

variable {cfg : Config} {psd : InMemoryDataStore} {pages : OrderedMap ResPageKey ResPageVal}
  {p c c' n : ℕ} {val : ResPageVal} {l : List (ResPageKey × ResPageVal)} {desc : ResPagesDescriptor}

/-! ## Newest versions -/

/-- The version `c'` of page `p` is its newest one that is not above `c`. -/
structure IsNewest (pages : OrderedMap ResPageKey ResPageVal) (p c c' : ℕ) (val : ResPageVal) :
    Prop where
  mem : (⟨p, c'⟩, val) ∈ pages
  le : c' ≤ c
  newest : ∀ c'' val'', (⟨p, c''⟩, val'') ∈ pages → c'' ≤ c → c'' ≤ c'

theorem isNewest_iff_lowerBound :
    IsNewest pages p c c' val ↔ pages.lowerBound ⟨p, c⟩ = some (⟨p, c'⟩, val) := by
  rw [lowerBound_eq_some_iff]
  constructor
  · rintro ⟨hmem, hle, hnewest⟩
    refine ⟨hmem, le_iff.2 (Or.inr ⟨rfl, hle⟩), fun b hb hkb => le_iff.2 ?_⟩
    rcases le_iff.1 hkb with hlt | ⟨heq, hbc⟩
    · exact Or.inl hlt
    · obtain ⟨⟨page, checkpoint⟩, val'⟩ := b
      obtain rfl : p = page := heq
      exact Or.inr ⟨rfl, hnewest checkpoint val' hb hbc⟩
  · rintro ⟨hmem, hle, hleast⟩
    have hle' : c' ≤ c := by
      rcases le_iff.1 hle with hlt | ⟨-, hc⟩
      · lia
      · exact hc
    refine ⟨hmem, hle', fun c'' val'' hmem'' hc'' => ?_⟩
    rcases le_iff.1 (hleast _ hmem'' (le_iff.2 (Or.inr ⟨rfl, hc''⟩))) with
      hlt | ⟨-, hc⟩
    · lia
    · exact hc

/-- The newest version of page `p` that is not above `c`, with its label. -/
def version (pages : OrderedMap ResPageKey ResPageVal) (p c : ℕ) : Option (ℕ × ResPageVal) :=
  (pages.lowerBound ⟨p, c⟩).bind fun e =>
    if e.1.pageId = p then some (e.1.checkpoint, e.2) else none

theorem version_eq_some_iff : version pages p c = some (c', val) ↔ IsNewest pages p c c' val := by
  rw [isNewest_iff_lowerBound, version, Option.bind_eq_some_iff]
  constructor
  · rintro ⟨⟨⟨page, checkpoint⟩, val'⟩, hlower, h⟩
    by_cases hpage : page = p
    · subst hpage
      rw [if_pos rfl] at h
      obtain ⟨rfl, rfl⟩ := Prod.mk.inj (Option.some.inj h)
      exact hlower
    · rw [if_neg hpage] at h
      simp at h
  · intro h
    exact ⟨_, h, if_pos rfl⟩

/-- A page has a newest version unless all its versions are above `c`. -/
theorem version_eq_none_iff :
    version pages p c = none ↔ ∀ c' val, (⟨p, c'⟩, val) ∈ pages → c < c' := by
  constructor
  · intro h c' val hmem
    by_contra hle
    have hkey : (⟨p, c⟩ : ResPageKey) ≤ ⟨p, c'⟩ :=
      le_iff.2 (Or.inr ⟨rfl, not_lt.1 hle⟩)
    cases hlower : pages.lowerBound ⟨p, c⟩ with
    | none => exact lowerBound_eq_none_iff.1 hlower _ hmem hkey
    | some e =>
      -- the lower bound lies between the key and a version of the page
      obtain ⟨-, hge, hleast⟩ := lowerBound_eq_some_iff.1 hlower
      have hpage : e.1.pageId = p := by
        have hle' := le_iff.1 (hleast _ hmem hkey)
        have hge' := le_iff.1 hge
        dsimp only at hle' hge'
        omega
      rw [version, hlower, Option.bind_some, if_pos hpage] at h
      simp at h
  · intro h
    by_contra hne
    obtain ⟨⟨c', val⟩, hsome⟩ := Option.ne_none_iff_exists'.1 hne
    have hnewest := version_eq_some_iff.1 hsome
    exact absurd hnewest.le (not_le.2 (h c' val hnewest.mem))

/-- Only the versions of the page that are not above `c` count. -/
theorem version_congr {pages' : OrderedMap ResPageKey ResPageVal}
    (h : ∀ c' val, c' ≤ c → ((⟨p, c'⟩, val) ∈ pages ↔ (⟨p, c'⟩, val) ∈ pages')) :
    version pages p c = version pages' p c := by
  cases hv : version pages p c with
  | none =>
    refine (version_eq_none_iff.2 fun c' val hmem => ?_).symm
    by_contra hle
    exact hle (version_eq_none_iff.1 hv c' val ((h c' val (not_lt.1 hle)).2 hmem))
  | some v =>
    obtain ⟨hmem, hle, hnewest⟩ := version_eq_some_iff.1 hv
    refine (version_eq_some_iff.2 ⟨(h _ _ hle).1 hmem, hle, fun c'' val'' hmem' hle' => ?_⟩).symm
    exact hnewest c'' val'' ((h c'' val'' hle').2 hmem') hle'

/-! ## Reading -/

theorem getResPage_eq (psd : InMemoryDataStore) (p c : ℕ) :
    psd.getResPage p c = Assert (c ≤ psd.lastStoredCheckpoint) >>= fun _ =>
      match version psd.pages p c with
      | none => .error .assertion
      | some v => .ok v := by
  unfold getResPage version
  congr 1
  cases hlower : psd.pages.lowerBound ⟨p, c⟩ with
  | none => rfl
  | some e =>
    have hge := le_iff.1 (lowerBound_eq_some_iff.1 hlower).2.1
    dsimp only at hge
    dsimp only [Option.bind_some]
    by_cases hpage : e.1.pageId = p
    · rw [Assert, require_of hpage, Assert, require_of (by omega), if_pos hpage]
      rfl
    · rw [Assert, require, if_neg hpage, if_neg hpage]
      rfl

theorem getResPage_of_version {v : ℕ × ResPageVal} (hc : c ≤ psd.lastStoredCheckpoint)
    (h : version psd.pages p c = some v) : psd.getResPage p c = .ok v := by
  rw [getResPage_eq, Assert, require_of hc, ok_bind, h]

theorem copyResPage_eq {n : ℕ} (hc : c ≤ psd.lastStoredCheckpoint)
    (h : version psd.pages p c = some (c', val)) (hpos : 0 < n) (hn : n ≤ kSizeOfReservedPage) :
    psd.copyResPage p c n = .ok (c', val.pageDigest, val.page.1.take n) := by
  simp only [copyResPage, Assert, require_of hn, getResPage_of_version hc h, require_of hpos]
  rfl

/-! ## Deleting covered versions -/

/-- The loop keeps, of the versions of a page that are not above `minRelevant`, the newest one. Before
    an element, `prevIn` tells that such a version of `prevPage` has been kept. -/
theorem mem_withoutCovered_iff {minRelevant prevPage : ℕ} {prevIn : Bool}
    (hsorted : l.Pairwise fun a b => a.1 < b.1) (hprev : ∀ e ∈ l, prevPage ≤ e.1.pageId)
    (a : ResPageKey × ResPageVal) :
    a ∈ withoutCovered minRelevant prevPage prevIn l ↔
      a ∈ l ∧ ¬ (prevIn = true ∧ a.1.pageId = prevPage) ∧
      (a.1.checkpoint ≤ minRelevant → ∀ b ∈ l, b.1.pageId = a.1.pageId →
        b.1.checkpoint ≤ minRelevant → b.1.checkpoint ≤ a.1.checkpoint) := by
  induction l generalizing prevPage prevIn with
  | nil => simp [withoutCovered]
  | cons e rest ih =>
    obtain ⟨he, hrest⟩ := pairwise_cons.1 hsorted
    have hpage : ∀ b ∈ rest, e.1.pageId ≤ b.1.pageId := by
      intro b hb
      have := lt_iff.1 (he b hb)
      omega
    have hafter : ∀ b ∈ rest, b.1.pageId = e.1.pageId → b.1.checkpoint < e.1.checkpoint := by
      intro b hb heq
      have := lt_iff.1 (he b hb)
      omega
    have hprev' := hprev e mem_cons_self
    unfold withoutCovered
    split_ifs with hskip
    · rw [ih hrest fun b hb => hprev b (mem_cons_of_mem e hb)]
      constructor
      · rintro ⟨ha, hnot, hnewest⟩
        refine ⟨mem_cons_of_mem e ha, hnot, fun hle b hb hsame hb' => ?_⟩
        rcases mem_cons.1 hb with rfl | hb
        · exact absurd ⟨hskip.2, hsame.symm.trans hskip.1⟩ hnot
        · exact hnewest hle b hb hsame hb'
      · rintro ⟨ha, hnot, hnewest⟩
        refine ⟨?_, hnot, fun hle b hb => hnewest hle b (mem_cons_of_mem e hb)⟩
        rcases mem_cons.1 ha with rfl | ha
        · exact absurd ⟨hskip.2, hskip.1⟩ hnot
        · exact ha
    · rw [mem_cons, ih hrest hpage]
      constructor
      · rintro (rfl | ⟨ha, hnot, hnewest⟩)
        · refine ⟨mem_cons_self, fun h => hskip ⟨h.2, h.1⟩, fun _ b hb hsame _ => ?_⟩
          rcases mem_cons.1 hb with rfl | hb
          · exact le_refl _
          · exact le_of_lt (hafter b hb hsame)
        · refine ⟨mem_cons_of_mem e ha, fun h => ?_, fun hle b hb hsame hb' => ?_⟩
          · have := hpage a ha
            exact hskip ⟨by omega, h.1⟩
          · rcases mem_cons.1 hb with rfl | hb
            · exact absurd ⟨decide_eq_true hb', hsame.symm⟩ hnot
            · exact hnewest hle b hb hsame hb'
      · rintro ⟨ha, -, hnewest⟩
        rcases mem_cons.1 ha with rfl | ha
        · exact Or.inl rfl
        · refine Or.inr ⟨ha, fun h => ?_, fun hle b hb => hnewest hle b (mem_cons_of_mem e hb)⟩
          have hlt := hafter a ha h.2
          have hin : e.1.checkpoint ≤ minRelevant := of_decide_eq_true h.1
          have := hnewest (by omega) e mem_cons_self h.2.symm hin
          omega

theorem mem_uncovered_iff {minRelevant : ℕ} (a : ResPageKey × ResPageVal) :
    a ∈ uncovered minRelevant pages ↔ a ∈ pages ∧
      (a.1.checkpoint ≤ minRelevant → ∀ b ∈ pages, b.1.pageId = a.1.pageId →
        b.1.checkpoint ≤ minRelevant → b.1.checkpoint ≤ a.1.checkpoint) := by
  have h : a ∈ uncovered minRelevant pages ↔ a ∈ pages ∧
      ¬ (false = true ∧ a.1.pageId = 0) ∧ _ :=
    mem_withoutCovered_iff pages.sorted (fun e _ => Nat.zero_le e.1.pageId) a
  rw [h]
  exact and_congr_right fun _ => and_iff_right (by simp)

/-- **No stored checkpoint sees the deletion.** -/
theorem version_uncovered {minRelevant : ℕ} (hc : minRelevant ≤ c) :
    version (uncovered minRelevant pages) p c = version pages p c := by
  cases hv : version pages p c with
  | none =>
    refine version_eq_none_iff.2 fun c' val hmem => ?_
    exact version_eq_none_iff.1 hv c' val ((mem_uncovered_iff _).1 hmem).1
  | some v =>
    obtain ⟨hmem, hle, hnewest⟩ := version_eq_some_iff.1 hv
    refine version_eq_some_iff.2 ⟨?_, hle, fun c'' val'' hmem' =>
      hnewest c'' val'' ((mem_uncovered_iff _).1 hmem').1⟩
    refine (mem_uncovered_iff _).2 ⟨hmem, fun _ b hb hpage hle' => ?_⟩
    obtain ⟨⟨page, checkpoint⟩, val'⟩ := b
    obtain rfl : page = p := hpage
    exact hnewest checkpoint val' hb (le_trans hle' hc)

/-! ## The number of versions -/

theorem le_size (h : ∀ p < n, ∃ c val, (⟨p, c⟩, val) ∈ pages) : n ≤ pages.size := by
  have hsub : range n ⊆ pages.entries.map (·.1.pageId) := by
    intro p hp
    obtain ⟨c, val, hmem⟩ := h p (mem_range.1 hp)
    exact mem_map.2 ⟨_, hmem, rfl⟩
  have hlen := (nodup_range.subperm hsub).length_le
  rwa [length_range, length_map] at hlen

/-- Of each page, one version that is not above `minRelevant` is left. -/
theorem size_uncovered_le {minRelevant last : ℕ} (hle : minRelevant ≤ last)
    (h : ∀ e ∈ pages, e.1.pageId < n ∧ e.1.checkpoint ≤ last) :
    (uncovered minRelevant pages).size ≤ n * (last - minRelevant + 1) := by
  have hsub : (uncovered minRelevant pages).entries.map
      (fun e => (e.1.pageId, max e.1.checkpoint minRelevant)) ⊆
      range n ×ˢ range' minRelevant (last - minRelevant + 1) := by
    intro x hx
    obtain ⟨e, he, rfl⟩ := mem_map.1 hx
    obtain ⟨hmem, -⟩ := (mem_uncovered_iff e).1 he
    have hbounds := h e hmem
    refine mem_product.2 ⟨mem_range.2 hbounds.1, mem_range'_1.2 ?_⟩
    omega
  have hnodup : ((uncovered minRelevant pages).entries.map
      (fun e => (e.1.pageId, max e.1.checkpoint minRelevant))).Nodup := by
    refine Nodup.map_on (fun a ha b hb heq => ?_)
      ((uncovered minRelevant pages).sorted.imp fun hlt heq => absurd (heq ▸ hlt) (lt_irrefl _))
    obtain ⟨hpage, hmax⟩ := Prod.mk.inj heq
    obtain ⟨ha', hnewest⟩ := (mem_uncovered_iff a).1 ha
    obtain ⟨hb', hnewest'⟩ := (mem_uncovered_iff b).1 hb
    refine OrderedMap.eq_of_mem ha' hb' (ResPageKey.ext hpage ?_)
    by_cases hlow : a.1.checkpoint ≤ minRelevant ∧ b.1.checkpoint ≤ minRelevant
    · exact le_antisymm (hnewest' hlow.2 a ha' hpage hlow.1)
        (hnewest hlow.1 b hb' hpage.symm hlow.2)
    · omega
  have hlen := (hnodup.subperm hsub).length_le
  rwa [length_map, length_product, length_range, length_range'] at hlen

/-! ## Descriptors -/

/-- The description of a page by its newest version. -/
def describe (p : ℕ) : Option (ℕ × ResPageVal) → SingleResPageDesc
  | none => ⟨p, 0, Digest.zero⟩
  | some v => ⟨p, v.1, v.2.pageDigest⟩

/-- The descriptor of the pages below `n` at checkpoint `c`. -/
def descriptorAt (n : ℕ) (pages : OrderedMap ResPageKey ResPageVal) (c : ℕ) : ResPagesDescriptor :=
  (List.range n).map fun p => describe p (version pages p c)

section

variable {e : ResPageKey × ResPageVal} {rest : List (ResPageKey × ResPageVal)}
  (h : (e :: rest).Pairwise fun a b => a.1 < b.1)

theorem version_cons_of_not_le (hnot : ¬ (⟨p, c⟩ : ResPageKey) ≤ e.1) :
    version ⟨e :: rest, h⟩ p c = version ⟨rest, (List.pairwise_cons.1 h).2⟩ p c := by
  unfold version lowerBound
  rw [find?_cons_of_neg (by simpa using hnot)]

theorem version_cons_of_match (hpage : p = e.1.pageId) (hle : e.1.checkpoint ≤ c) :
    version ⟨e :: rest, h⟩ p c = some (e.1.checkpoint, e.2) := by
  unfold version lowerBound
  rw [find?_cons_of_pos (by simpa using le_iff.2 (Or.inr ⟨hpage, hle⟩)),
    Option.bind_some, if_pos hpage.symm]

/-- An entry that the loop passes over is not the version of a page that is still to be described, as
    long as the next page has a version. -/
theorem version_cons_of_skip {k : ℕ} (hskip : ¬ (k = e.1.pageId ∧ e.1.checkpoint ≤ c))
    (hk : (version ⟨e :: rest, h⟩ k c).isSome = true) (hp : k ≤ p) :
    version ⟨e :: rest, h⟩ p c = version ⟨rest, (List.pairwise_cons.1 h).2⟩ p c := by
  obtain ⟨v, hv⟩ := Option.isSome_iff_exists.1 hk
  obtain ⟨hmem, hle, -⟩ := version_eq_some_iff.1 hv
  have hpage : e.1.pageId ≤ k := by
    rcases mem_cons.1 hmem with rfl | hmem
    · exact le_refl _
    · have hlt := lt_iff.1 ((pairwise_cons.1 h).1 _ hmem)
      dsimp only at hlt
      omega
  refine version_cons_of_not_le h fun hle' => ?_
  rcases le_iff.1 hle' with hlt | ⟨heq, hc⟩
  · dsimp only at hlt
    omega
  · dsimp only at heq hc
    exact hskip ⟨by omega, hc⟩

theorem version_rest_none (hnone : version ⟨e :: rest, h⟩ p c = none) :
    version ⟨rest, (List.pairwise_cons.1 h).2⟩ p c = none :=
  version_eq_none_iff.2 fun c' val hmem =>
    version_eq_none_iff.1 hnone c' val (mem_cons_of_mem e hmem)

end

/-- The loop describes the pages up to the first one without a version. -/
theorem describePages_eq (hsorted : l.Pairwise fun a b => a.1 < b.1) {m : ℕ} (hm : desc.length ≤ m)
    (hN : m ≤ cfg.numberOfReservedPages)
    (hall : ∀ p, desc.length ≤ p → p < m → (version ⟨l, hsorted⟩ p c).isSome = true)
    (hnone : version ⟨l, hsorted⟩ m c = none) :
    describePages cfg c desc l = .ok (desc ++ (List.range' desc.length (m - desc.length)).map
      fun p => describe p (version ⟨l, hsorted⟩ p c)) := by
  induction l generalizing desc with
  | nil =>
    have heq : desc.length = m := by
      by_contra hne
      exact absurd (hall desc.length (le_refl _) (by omega)) (by simp [version, lowerBound])
    rw [heq, Nat.sub_self, range'_zero, map_nil, append_nil]
    rfl
  | cons e rest ih =>
    have hrest := (pairwise_cons.1 hsorted).2
    unfold describePages
    by_cases hmatch : desc.length = e.1.pageId ∧ e.1.checkpoint ≤ c
    · have hversion := version_cons_of_match hsorted hmatch.1 hmatch.2
      have hlt : desc.length < m := by
        refine lt_of_le_of_ne hm fun heq => ?_
        rw [← heq, hversion] at hnone
        simp at hnone
      have hafter : ∀ p, desc.length < p →
          version ⟨e :: rest, hsorted⟩ p c = version ⟨rest, hrest⟩ p c := by
        intro p hp
        refine version_cons_of_not_le hsorted fun hle => ?_
        have := le_iff.1 hle
        dsimp only at this
        omega
      rw [if_pos hmatch, require_of (lt_of_lt_of_le hlt hN)]
      rw [ih hrest (by simpa using Nat.succ_le_of_lt hlt) (fun p hp hp' => ?_)
        (version_rest_none hsorted hnone)]
      · obtain ⟨j, hj⟩ : ∃ j, m - desc.length = j + 1 := ⟨m - desc.length - 1, by omega⟩
        have hj' : m - (desc.length + 1) = j := by omega
        rw [length_append, length_singleton, hj, hj', range'_succ, map_cons, append_assoc, hversion]
        refine congrArg (fun l => Except.ok (desc ++ _ :: l)) (map_congr_left fun p hp => ?_)
        rw [hafter p (by have := mem_range'_1.1 hp; omega)]
      · rw [length_append] at hp
        rw [← hafter p hp]
        exact hall p (by omega) hp'
    · rw [if_neg hmatch, ih hrest hm (fun p hp hp' => ?_) (version_rest_none hsorted hnone)]
      · refine congrArg (fun l => Except.ok (desc ++ l)) (map_congr_left fun p hp => ?_)
        have hp' := mem_range'_1.1 hp
        rw [version_cons_of_skip hsorted hmatch (hall desc.length (le_refl _) (by omega)) hp'.1]
      · rw [← version_cons_of_skip hsorted hmatch (hall desc.length (le_refl _) (by omega)) hp]
        exact hall p hp hp'

/-- A version of the page behind the last one makes the loop leave the descriptor. -/
theorem describePages_outOfRange {l : List (ResPageKey × ResPageVal)}
    (hsorted : l.Pairwise fun a b => a.1 < b.1) {desc : ResPagesDescriptor}
    (hm : desc.length ≤ cfg.numberOfReservedPages)
    (hall : ∀ p, desc.length ≤ p → p ≤ cfg.numberOfReservedPages →
      (version ⟨l, hsorted⟩ p c).isSome = true) :
    describePages cfg c desc l = .error .outOfRange := by
  induction l generalizing desc with
  | nil => exact absurd (hall desc.length (le_refl _) hm) (by simp [version, lowerBound])
  | cons e rest ih =>
    have hrest := (pairwise_cons.1 hsorted).2
    unfold describePages
    split_ifs with hmatch
    · by_cases hlt : desc.length < cfg.numberOfReservedPages
      · rw [require_of hlt]
        refine ih hrest (by simpa using Nat.succ_le_of_lt hlt) fun p hp hp' => ?_
        rw [length_append, length_singleton] at hp
        rw [← version_cons_of_not_le hsorted (fun hle => ?_)]
        · exact hall p (by omega) hp'
        · have := le_iff.1 hle
          dsimp only at this
          omega
      · unfold require
        rw [if_neg hlt]
        rfl
    · refine ih hrest hm fun p hp hp' => ?_
      rw [← version_cons_of_skip hsorted hmatch (hall desc.length (le_refl _) hm) hp]
      exact hall p hp hp'

/-- **The descriptor lists the newest versions** of all pages. -/
theorem getResPagesDescriptor_eq
    (hall : 1 ≤ c → ∀ p < cfg.numberOfReservedPages, (version psd.pages p c).isSome = true)
    (hnone : 1 ≤ c → version psd.pages cfg.numberOfReservedPages c = none)
    (hzero : c = 0 → ∀ p < cfg.numberOfReservedPages, version psd.pages p 0 = none) :
    psd.getResPagesDescriptor cfg c = .ok (descriptorAt cfg.numberOfReservedPages psd.pages c) := by
  unfold getResPagesDescriptor
  by_cases hc : 1 ≤ c
  · rw [if_pos hc, describePages_eq psd.pages.sorted (Nat.zero_le _) (Nat.le_refl _)
      (fun p _ hp => hall hc p hp) (hnone hc), nil_append, ok_bind]
    have hlen : ((range' 0 (cfg.numberOfReservedPages - 0)).map fun p =>
        describe p (version psd.pages p c)).length = cfg.numberOfReservedPages := by simp
    simp only [length_nil] at hlen ⊢
    rw [Assert, require_of hlen, descriptorAt, range_eq_range']
    rfl
  · obtain rfl : c = 0 := by omega
    refine congrArg Except.ok (map_congr_left fun p hp => ?_)
    rw [hzero rfl p (mem_range.1 hp)]
    rfl

/-- Every page below the end of a descriptor has a version, and the page at its end has none. -/
theorem versions_of_getResPagesDescriptor (hc : 1 ≤ c)
    (h : psd.getResPagesDescriptor cfg c = .ok desc) :
    (∀ p < cfg.numberOfReservedPages, (version psd.pages p c).isSome = true) ∧
      version psd.pages cfg.numberOfReservedPages c = none := by
  unfold getResPagesDescriptor at h
  rw [if_pos hc] at h
  obtain ⟨found, hfound, h⟩ := bind_eq_ok h
  obtain ⟨hlen, -⟩ := require_bind_eq_ok h
  by_cases hfull : ∀ p, p ≤ cfg.numberOfReservedPages → (version psd.pages p c).isSome = true
  · rw [describePages_outOfRange psd.pages.sorted (Nat.zero_le _) fun p _ hp => hfull p hp] at hfound
    simp at hfound
  · -- the first page without a version is the one behind the last
    have hexists : ∃ p, version psd.pages p c = none := by
      push Not at hfull
      obtain ⟨p, -, hnone⟩ := hfull
      exact ⟨p, by simpa using hnone⟩
    obtain ⟨m, hnone, hbefore⟩ : ∃ m, version psd.pages m c = none ∧
        ∀ p < m, (version psd.pages p c).isSome = true :=
      ⟨Nat.find hexists, Nat.find_spec hexists, fun p hp =>
        Option.isSome_iff_ne_none.2 (Nat.find_min hexists hp)⟩
    have hle : m ≤ cfg.numberOfReservedPages := by
      by_contra hgt
      exact hfull fun p hp => hbefore p (by omega)
    rw [describePages_eq psd.pages.sorted (Nat.zero_le _) hle (fun p _ hp => hbefore p hp) hnone]
      at hfound
    have hm : m = cfg.numberOfReservedPages := by
      rw [← hlen, ← Except.ok.inj hfound]
      simp
    rw [← hm]
    exact ⟨hbefore, hnone⟩

end InMemoryDataStore

end ConcordBft.BCStateTran
