import ConcordBft.SimpleKVBC.Reads
import Mathlib.Order.Interval.Finset.Fin

set_option autoImplicit false

/-! # The key-value blockchain as the storage of the state transfer

The state transfer asks whether a block is stored, for its bytes and for the digest in it, for the
largest id and for the last block up to which all are stored (`IAppState`). Two of the five queries
are always right. `getBlock` and `getPrevDigestFromBlock` take a block that is not there for an empty
one, the digest of a block that is shorter than a header is read behind it, and `getLastBlockNum`
counts block records, so that a gap above its cached number makes the result too small
(`contract_iff`). -/

namespace ConcordBft.SimpleKVBC

open BlockchainDBAdapter Checked DbKey ReplicaImp List

/-! ## The records of blocks -/

/-- The ids of the block records, in the order of the database. -/
def blockIds (entries : List (DbKey × Bytes)) : List BlockId :=
  entries.filterMap fun e =>
    match e.1 with
    | .block i => some i
    | .data _ _ => none

variable {entries : List (DbKey × Bytes)} {chain : BlockId → Option StoredBlock}

theorem mem_blockIds {i : BlockId} :
    i ∈ blockIds entries ↔ ∃ block, (DbKey.block i, block) ∈ entries := by
  unfold blockIds
  rw [mem_filterMap]
  constructor
  · rintro ⟨⟨k, block⟩, hmem, hk⟩
    cases k with
    | block j =>
      obtain rfl : j = i := by simpa using hk
      exact ⟨block, hmem⟩
    | data key j => simp at hk
  · rintro ⟨block, hmem⟩
    exact ⟨_, hmem, rfl⟩

theorem pairwise_blockIds (h : entries.Pairwise fun a b => a.1 < b.1) :
    (blockIds entries).Pairwise (· < ·) := by
  unfold blockIds
  rw [pairwise_filterMap]
  refine h.imp ?_
  rintro ⟨k, x⟩ ⟨k', x'⟩ hlt i hi j hj
  cases k with
  | data key n => simp at hi
  | block n =>
    cases k' with
    | data key n' => simp at hj
    | block n' =>
      obtain rfl : n = i := by simpa using hi
      obtain rfl : n' = j := by simpa using hj
      exact block_lt_block.1 hlt

/-- No block record comes behind a data record. -/
theorem blockIds_eq_nil {key : Bytes} {i : BlockId} (h : ∀ e ∈ entries, DbKey.data key i < e.1) :
    blockIds entries = [] := by
  refine eq_nil_iff_forall_not_mem.2 fun j hj => ?_
  obtain ⟨block, hmem⟩ := mem_blockIds.1 hj
  exact not_data_lt_block key i j (h _ hmem)

theorem extractType_block (i : BlockId) :
    extractTypeFromKey (DbKey.block i).bytes = EDBKeyType.E_DB_KEY_TYPE_BLOCK.value :=
  extractTypeFromKey_genDbKey _ _ _

theorem extractType_data (key : Bytes) (i : BlockId) :
    extractTypeFromKey (DbKey.data key i).bytes ≠ EDBKeyType.E_DB_KEY_TYPE_BLOCK.value := by
  rw [bytes, genDataDbKey, extractTypeFromKey_genDbKey]
  decide

/-- `getLastBlock` adds the number of block records. -/
theorem countBlocks_image (h : entries.Pairwise fun a b => a.1 < b.1) (n : BlockId) :
    countBlocks (entries.map fun e => (e.1.bytes, e.2)) n =
      n + Fin.ofNat _ (blockIds entries).length := by
  induction entries generalizing n with
  | nil => simp [countBlocks, blockIds]
  | cons e rest ih =>
    obtain ⟨k, x⟩ := e
    obtain ⟨hhead, hrest⟩ := pairwise_cons.1 h
    rw [map_cons, countBlocks]
    cases k with
    | block i =>
      rw [if_pos (extractType_block i), ih hrest]
      have hids : blockIds ((block i, x) :: rest) = i :: blockIds rest := rfl
      rw [hids]
      apply Fin.ext
      simp [Fin.val_add]
      omega
    | data key i =>
      have hids : blockIds ((data key i, x) :: rest) = [] :=
        show blockIds rest = [] from blockIds_eq_nil hhead
      rw [if_neg (extractType_data key i), hids]
      simp

/-- Ids between two numbers are at most as many as there is room, and as many exactly if none is
    missing. -/
theorem length_ids {ids : List BlockId} (lo hi : BlockId) (hsorted : ids.Pairwise (· < ·))
    (hbounds : ∀ i ∈ ids, lo < i ∧ i ≤ hi) :
    ids.length ≤ hi.val - lo.val ∧
      (ids.length = hi.val - lo.val ↔ ∀ i, lo < i → i ≤ hi → i ∈ ids) := by
  have hnodup : ids.Nodup := hsorted.imp fun h => ne_of_lt h
  have hcard : ids.toFinset.card = ids.length := toFinset_card_of_nodup hnodup
  have hsub : ids.toFinset ⊆ Finset.Ioc lo hi := by
    intro i hi'
    exact Finset.mem_Ioc.2 (hbounds i (mem_toFinset.1 hi'))
  have hle := Finset.card_le_card hsub
  rw [Fin.card_Ioc, hcard] at hle
  refine ⟨hle, ?_⟩
  constructor
  · intro hlen i hlo hle'
    have heq : ids.toFinset = Finset.Ioc lo hi :=
      Finset.eq_of_subset_of_card_le hsub (by rw [Fin.card_Ioc, hcard, hlen])
    exact mem_toFinset.1 (heq ▸ Finset.mem_Ioc.2 ⟨hlo, hle'⟩)
  · intro hall
    have heq : ids.toFinset = Finset.Ioc lo hi := by
      refine Finset.Subset.antisymm hsub fun i hi' => ?_
      obtain ⟨hlo, hle'⟩ := Finset.mem_Ioc.1 hi'
      exact mem_toFinset.2 (hall i hlo hle')
    rw [← hcard, heq, Fin.card_Ioc]

theorem val_succ {n : BlockId} (h : n ≠ Fin.last _) : (n + 1).val = n.val + 1 :=
  Fin.val_add_one_of_lt (Fin.lt_last_iff_ne_last.2 h)

/-- The loop of `getLastReachableBlock` stops in front of the first id that is missing. -/
theorem countReachable_image (h : entries.Pairwise fun a b => a.1 < b.1) {n : BlockId}
    (hn : n ≠ Fin.last _) (hbelow : ∀ i ∈ blockIds entries, n < i ∧ i ≠ Fin.last _) :
    n ≤ countReachable (entries.map fun e => (e.1.bytes, e.2)) n ∧
      countReachable (entries.map fun e => (e.1.bytes, e.2)) n ≠ Fin.last _ ∧
      (∀ i, n < i → i ≤ countReachable (entries.map fun e => (e.1.bytes, e.2)) n →
        i ∈ blockIds entries) ∧
      countReachable (entries.map fun e => (e.1.bytes, e.2)) n + 1 ∉ blockIds entries := by
  induction entries generalizing n with
  | nil => exact ⟨le_refl _, hn, fun i hlo hhi => absurd hlo (not_lt.2 hhi), by simp [blockIds]⟩
  | cons e rest ih =>
    obtain ⟨k, x⟩ := e
    obtain ⟨hhead, hrest⟩ := pairwise_cons.1 h
    rw [map_cons, countReachable]
    cases k with
    | data key i =>
      have hids : blockIds ((data key i, x) :: rest) = [] :=
        show blockIds rest = [] from blockIds_eq_nil hhead
      rw [hids]
      exact ⟨le_refl _, hn, fun i hlo hhi => absurd hlo (not_lt.2 hhi), by simp⟩
    | block i =>
      have hid : extractBlockIdFromKey (block i).bytes = i :=
        extractBlockIdFromKey_genDbKey _ _ _
      have hlater : ∀ j ∈ blockIds rest, i < j := by
        intro j hj
        obtain ⟨block, hmem⟩ := mem_blockIds.1 hj
        exact block_lt_block.1 (hhead _ hmem)
      rw [hid]
      have hsucc := val_succ hn
      obtain ⟨hni, hilast⟩ := hbelow i mem_cons_self
      by_cases heq : i = n + 1
      · rw [if_pos ⟨extractType_block i, heq⟩, ← heq]
        obtain ⟨hle, hlast, hall, hmissing⟩ := ih hrest hilast fun j hj =>
          ⟨hlater j hj, (hbelow j (mem_cons_of_mem i hj)).2⟩
        refine ⟨le_trans (le_of_lt hni) hle, hlast, fun j hlo hhi => ?_, ?_⟩
        · by_cases hj : i < j
          · exact mem_cons_of_mem i (hall j hj hhi)
          · have hle' := Fin.le_def.1 (not_lt.1 hj)
            have hlt := Fin.lt_def.1 hlo
            have hi := congrArg Fin.val heq
            have : j = i := Fin.ext (by omega)
            exact this ▸ mem_cons_self
        · intro hmem
          rcases mem_cons.1 hmem with hmem | hmem
          · have hval := congrArg Fin.val hmem
            have hle' := Fin.le_def.1 hle
            rw [val_succ hlast] at hval
            omega
          · exact hmissing hmem
      · rw [if_neg fun hc => heq hc.2]
        refine ⟨le_refl _, hn, fun j hlo hhi => absurd hlo (not_lt.2 hhi), ?_⟩
        intro hmem
        rcases mem_cons.1 hmem with hmem | hmem
        · exact heq hmem.symm
        · have hlt := Fin.lt_def.1 (hlater _ hmem)
          have hlt' := Fin.lt_def.1 hni
          omega

/-! ## The two block numbers -/

/-- `n` is the largest id of a stored block, or 0 if there is none. -/
structure IsLargest (chain : BlockId → Option StoredBlock) (n : BlockId) : Prop where
  le : ∀ i, (chain i).isSome → i ≤ n
  stored : (chain n).isSome ∨ n = 0

/-- `n` is the largest number such that the blocks `1, …, n` are stored. -/
structure IsReachable (chain : BlockId → Option StoredBlock) (n : BlockId) : Prop where
  stored : ∀ i, 1 ≤ i → i ≤ n → (chain i).isSome
  largest : ∀ m, (∀ i, 1 ≤ i → i ≤ m → (chain i).isSome) → m ≤ n

/-- No block below a stored one is missing from `n` on. -/
def NoGapAbove (chain : BlockId → Option StoredBlock) (n : BlockId) : Prop :=
  ∀ i j, n < i → i ≤ j → (chain j).isSome → (chain i).isSome

theorem exists_isLargest (chain : BlockId → Option StoredBlock) : ∃ n, IsLargest chain n := by
  by_cases h : ∃ i, (chain i).isSome = true
  · obtain ⟨n, hn, hmax⟩ := exists_newest h
    exact ⟨n, hmax, Or.inl hn⟩
  · exact ⟨0, fun i hi => absurd ⟨i, hi⟩ h, Or.inr rfl⟩

theorem IsLargest.unique {n n' : BlockId} (h : IsLargest chain n) (h' : IsLargest chain n') :
    n = n' := by
  have hle : ∀ {a b}, IsLargest chain a → IsLargest chain b → a ≤ b := by
    intro a b ha hb
    rcases ha.stored with hs | rfl
    · exact hb.le a hs
    · exact Fin.zero_le b
  exact le_antisymm (hle h h') (hle h' h)

variable {a : BlockchainDBAdapter} {chain : BlockId → Option StoredBlock}

theorem Run.Refines.seek_blocks (h : Run.Refines a chain) (n : BlockId) :
    ∃ entries : List (DbKey × Bytes), entries.Pairwise (fun a b => a.1 < b.1) ∧
      a.seekAtLeast (genBlockDbKey n) = entries.map (fun e => (e.1.bytes, e.2)) ∧
      ∀ i, i ∈ blockIds entries ↔ n ≤ i ∧ (chain i).isSome := by
  obtain ⟨m, hstores, hblocks, -⟩ := h
  refine ⟨(ComparatorMap.atLeast m (.block n)).entries,
    (ComparatorMap.atLeast m (.block n)).sorted, hstores.seekAtLeast (.block n), fun i => ?_⟩
  have hmem : ∀ block, (DbKey.block i, block) ∈ (ComparatorMap.atLeast m (.block n)).entries ↔
      (chain i).map (·.bytes) = some block ∧ n ≤ i := by
    intro block
    have hle : DbKey.block n ≤ DbKey.block i ↔ n ≤ i := by
      rw [← not_lt, DbKey.block_lt_block, not_lt]
    rw [← hblocks, OrderedMap.find?_eq_some_iff, ← hle]
    simp [ComparatorMap.atLeast, OrderedMap.filter, OrderedMap.ofSublist, OrderedMap.mem_def]
  rw [mem_blockIds]
  simp only [hmem]
  constructor
  · rintro ⟨block, hblock, hle⟩
    refine ⟨hle, ?_⟩
    have := congrArg Option.isSome hblock
    simpa using this
  · rintro ⟨hle, hstored⟩
    obtain ⟨b, hb⟩ := Option.isSome_iff_exists.1 hstored
    exact ⟨b.bytes, by simp [hb], hle⟩

/-- **`getLastBlock` returns the largest id exactly if no block is missing above its cache.** -/
theorem Run.Refines.getLastBlock (h : Run.Refines a chain) (hlast : chain (Fin.last _) = none)
    {n : BlockId} (hn : IsLargest chain n) (hcache : a.lastKnownBlock ≤ n) :
    a.getLastBlock.lastKnownBlock ≤ n ∧
      (a.getLastBlock.lastKnownBlock = n ↔ NoGapAbove chain a.lastKnownBlock) := by
  have hne : n ≠ Fin.last _ := by
    rintro rfl
    rcases hn.stored with hs | hzero
    · rw [hlast] at hs
      simp at hs
    · exact absurd (congrArg Fin.val hzero) (by simp)
  have hcacheLast : a.lastKnownBlock ≠ Fin.last _ := by
    intro heq
    rw [heq] at hcache
    exact hne (Fin.last_le_iff.1 hcache)
  have hsucc := val_succ hcacheLast
  obtain ⟨entries, hsorted, hseek, hids⟩ := h.seek_blocks (a.lastKnownBlock + 1)
  have hmem : ∀ i, i ∈ blockIds entries ↔ a.lastKnownBlock < i ∧ (chain i).isSome := by
    intro i
    rw [hids, Fin.le_def, hsucc]
    exact Iff.rfl
  obtain ⟨hle, hfull⟩ := length_ids a.lastKnownBlock n (pairwise_blockIds hsorted) fun i hi =>
    ⟨((hmem i).1 hi).1, hn.le i ((hmem i).1 hi).2⟩
  have hcacheVal := Fin.le_def.1 hcache
  have hresult : a.getLastBlock.lastKnownBlock.val =
      a.lastKnownBlock.val + (blockIds entries).length := by
    rw [BlockchainDBAdapter.getLastBlock]
    rw [hseek, countBlocks_image hsorted, Fin.val_add, Fin.val_ofNat]
    omega
  refine ⟨Fin.le_def.2 (by omega), ?_⟩
  have hval : a.getLastBlock.lastKnownBlock = n ↔
      (blockIds entries).length = n.val - a.lastKnownBlock.val := by
    rw [Fin.ext_iff]
    omega
  rw [hval, hfull]
  constructor
  · intro hall i j hlo hij hj
    exact ((hmem i).1 (hall i hlo (le_trans hij (hn.le j hj)))).2
  · intro hgap i hlo hhi
    refine (hmem i).2 ⟨hlo, ?_⟩
    rcases hn.stored with hs | rfl
    · exact hgap i n hlo hhi hs
    · exact absurd (lt_of_lt_of_le hlo hhi) (not_lt.2 (Fin.zero_le _))

/-- **`getLastReachableBlock` is right** if all blocks up to its cache are stored. -/
theorem Run.Refines.getLastReachableBlock (h : Run.Refines a chain)
    (hlast : chain (Fin.last _) = none)
    (hcache : ∀ i, 1 ≤ i → i ≤ a.lastKnownReachableBlock → (chain i).isSome) :
    IsReachable chain a.getLastReachableBlock.lastKnownReachableBlock := by
  have hne : a.lastKnownReachableBlock ≠ Fin.last _ := by
    intro heq
    have hstored := hcache (Fin.last _) (by decide) (le_of_eq heq.symm)
    rw [hlast] at hstored
    simp at hstored
  have hsucc := val_succ hne
  obtain ⟨entries, hsorted, hseek, hids⟩ := h.seek_blocks (a.lastKnownReachableBlock + 1)
  have hmem : ∀ i, i ∈ blockIds entries ↔ a.lastKnownReachableBlock < i ∧ (chain i).isSome := by
    intro i
    rw [hids, Fin.le_def, hsucc]
    exact Iff.rfl
  obtain ⟨hle, hrlast, hall, hmissing⟩ := countReachable_image hsorted hne fun i hi => by
    refine ⟨((hmem i).1 hi).1, ?_⟩
    rintro rfl
    have hstored := ((hmem _).1 hi).2
    rw [hlast] at hstored
    simp at hstored
  rw [← hseek] at hle hrlast hall hmissing
  constructor
  · intro i hpos hi
    by_cases hbelow : i ≤ a.lastKnownReachableBlock
    · exact hcache i hpos hbelow
    · exact ((hmem i).1 (hall i (not_le.1 hbelow) hi)).2
  · intro m hm
    by_contra hgt
    -- the id after the result would be stored
    have hnext := val_succ hrlast
    have hlt := Fin.lt_def.1 (not_le.1 hgt)
    have hle' := Fin.le_def.1 hle
    refine hmissing ((hmem _).2 ⟨Fin.lt_def.2 (by omega), hm _ ?_ ?_⟩)
    · rw [Fin.le_def, hnext]
      simp
    · rw [Fin.le_def, hnext]
      exact hlt

/-! ## The cached numbers over runs -/

namespace Run

variable {cfg : KVBCConfig} {run run' : Run}

/-- The cached numbers are not ahead of the blocks. -/
structure CacheInv (run : Run) : Prop where
  lastKnown : ∀ n, IsLargest run.chain n → run.replica.bcDbAdapter.lastKnownBlock ≤ n
  reachable : ∀ i, 1 ≤ i → i ≤ run.replica.bcDbAdapter.lastKnownReachableBlock →
    (run.chain i).isSome

theorem isSome_store {blockId i : BlockId} {b : StoredBlock} (h : (chain i).isSome) :
    (store chain blockId b i).isSome := by
  by_cases hi : i = blockId
  · rw [hi, store_self]
    rfl
  · rw [store_of_ne hi]
    exact h

/-- A block more does not harm the caches. -/
theorem CacheInv.store (h : CacheInv run) {r : ReplicaImp} {blockId : BlockId} {b : StoredBlock}
    (hlastKnown : r.bcDbAdapter.lastKnownBlock = run.replica.bcDbAdapter.lastKnownBlock)
    (hreachable : r.bcDbAdapter.lastKnownReachableBlock =
      run.replica.bcDbAdapter.lastKnownReachableBlock) :
    CacheInv ⟨r, Run.store run.chain blockId b⟩ := by
  constructor
  · intro n hn
    obtain ⟨n', hn'⟩ := exists_isLargest run.chain
    have hle := h.lastKnown n' hn'
    rw [hlastKnown]
    rcases hn'.stored with hs | rfl
    · exact le_trans hle (hn.le n' (isSome_store hs))
    · lia
  · intro i hpos hi
    rw [hreachable] at hi
    exact isSome_store (h.reachable i hpos hi)

theorem updateKeys_caches (a : BlockchainDBAdapter) (blockId : BlockId) (updates : List KeyValuePair) :
    (ReplicaImp.updateKeys a blockId updates).lastKnownBlock = a.lastKnownBlock ∧
      (ReplicaImp.updateKeys a blockId updates).lastKnownReachableBlock =
        a.lastKnownReachableBlock := by
  induction updates generalizing a with
  | nil => exact ⟨rfl, rfl⟩
  | cons kv updates ih => exact ih (a.updateKey kv.1 blockId kv.2)

/-- What a call does to the blocks and to the caches: it stores a block or nothing and leaves the
    caches, or it is one of the two queries. -/
theorem next_cases {call : Call} (h : next cfg run call = some run') :
    (run'.replica.bcDbAdapter.lastKnownBlock = run.replica.bcDbAdapter.lastKnownBlock ∧
      run'.replica.bcDbAdapter.lastKnownReachableBlock =
        run.replica.bcDbAdapter.lastKnownReachableBlock ∧
      (run'.chain = run.chain ∨ ∃ blockId b, run'.chain = store run.chain blockId b)) ∨
    run' = { run with replica := run.replica.getLastBlockNum.2 } ∨
    run' = { run with replica := run.replica.getLastReachableBlockNum.2 } := by
  cases call with
  | getLastBlockNum => exact Or.inr (Or.inl (Option.some.inj h).symm)
  | getLastReachableBlockNum => exact Or.inr (Or.inr (Option.some.inj h).symm)
  | addBlock updates =>
    left
    simp only [next, addBlockInternal] at h
    cases hnew : run.replica.newBlock cfg updates with
    | error e => simp [hnew] at h
    | ok p =>
      simp only [hnew, ok_bind] at h
      split_ifs at h
      · obtain rfl := Option.some.inj h
        simp
      · obtain rfl := Option.some.inj h
        simp
      · obtain rfl := Option.some.inj h
        obtain ⟨h1, h2⟩ := updateKeys_caches (run.replica.bcDbAdapter.addBlock _ p.1) _ p.2
        exact ⟨h1, h2, Or.inr ⟨_, _, rfl⟩⟩
  | putBlock blockId block =>
    left
    simp only [next, insertBlockInternal] at h
    generalize (if run.replica.lastBlock < blockId then blockId else run.replica.lastBlock) = l at h
    cases hupdates : blockElements block with
    | none => simp [hupdates] at h
    | some updates =>
      simp only [hupdates] at h
      split_ifs at h
      · obtain rfl := Option.some.inj h
        simp
      · obtain rfl := Option.some.inj h
        obtain ⟨h1, h2⟩ := updateKeys_caches run.replica.bcDbAdapter blockId updates
        exact ⟨h1, h2, Or.inr ⟨_, _, rfl⟩⟩

theorem chain_mono {call : Call} (h : next cfg run call = some run') {i : BlockId}
    (hi : (run.chain i).isSome) : (run'.chain i).isSome := by
  rcases next_cases h with ⟨-, -, hchain | ⟨blockId, b, hchain⟩⟩ | rfl | rfl
  · rw [hchain]
    exact hi
  · rw [hchain]
    exact isSome_store hi
  · exact hi
  · exact hi

theorem CacheInv.next (h : CacheInv run) (hinv : Inv run) (hlast : run.chain (Fin.last _) = none)
    {call : Call} (hnext : Run.next cfg run call = some run') : CacheInv run' := by
  rcases next_cases hnext with ⟨h1, h2, hchain | ⟨blockId, b, hchain⟩⟩ | rfl | rfl
  · exact ⟨by rw [h1, hchain]; exact h.lastKnown, by rw [h2, hchain]; exact h.reachable⟩
  · obtain ⟨r, chain⟩ := run'
    obtain rfl : chain = _ := hchain
    exact h.store h1 h2
  · refine ⟨fun n hn => ?_, h.reachable⟩
    exact (hinv.refines.getLastBlock hlast hn (h.lastKnown n hn)).1
  · refine ⟨h.lastKnown, ?_⟩
    exact (hinv.refines.getLastReachableBlock hlast h.reachable).stored

/-- **The caches of every reachable state are not ahead of its blocks**, as long as the largest id of
    all is not used. -/
theorem Reaches.cacheInv (h : Reaches cfg {} run) (hlast : run.chain (Fin.last _) = none) :
    CacheInv run := by
  have hstep : Inv run ∧ (run.chain (Fin.last _) = none → CacheInv run) := by
    refine Machine.Reaches.invariant (fun u => Inv u ∧ (u.chain (Fin.last _) = none → CacheInv u))
      ⟨Inv.initial, fun _ => ?_⟩ ?_ h
    · refine ⟨fun n _ => Fin.zero_le n, fun i hpos hi => ?_⟩
      lia
    · rintro u call u' ⟨hinv, hcache⟩ hallowed hnext
      obtain ⟨u'', hnext', hinv'⟩ := hinv.next cfg hallowed
      obtain rfl := Option.some.inj (hnext.symm.trans hnext')
      refine ⟨hinv', fun hlast' => ?_⟩
      have hlastBefore : u.chain (Fin.last _) = none := by
        rw [← Option.not_isSome_iff_eq_none] at hlast' ⊢
        exact fun hs => hlast' (chain_mono hnext hs)
      exact (hcache hlastBefore).next hinv hlastBefore hnext
  exact hstep.2 hlast

/-! ## The contract -/

/-- The queries of the state transfer. -/
inductive Query where
  | hasBlock (i : BlockId)
  | getBlock (i : BlockId)
  | getPrevDigestFromBlock (i : BlockId)
  | getLastBlockNum
  | getLastReachableBlockNum
deriving DecidableEq, Repr

/-- What the state transfer expects of the answer to a query. -/
def Contract (run : Run) : Query → Prop
  | .hasBlock i => run.replica.hasBlock i = (run.chain i).isSome
  | .getBlock i =>
    (run.replica.getBlock i).1 = (run.chain i).isSome ∧
      ∀ b, run.chain i = some b → (run.replica.getBlock i).2 = b.bytes
  | .getPrevDigestFromBlock i =>
    (∃ digest, run.replica.getPrevDigestFromBlock i = some ((run.chain i).isSome, digest)) ∧
      ∀ b, run.chain i = some b →
        run.replica.getPrevDigestFromBlock i = some (true, prevBlockDigest b.bytes)
  | .getLastBlockNum => IsLargest run.chain run.replica.getLastBlockNum.1
  | .getLastReachableBlockNum => IsReachable run.chain run.replica.getLastReachableBlockNum.1

/-- The queries that are answered as expected: those for a block only if it is stored, with a header
    if its digest is asked for, and the one for the largest id only without gaps above the number that
    it has cached. -/
def Answerable (run : Run) : Query → Prop
  | .getBlock i => (run.chain i).isSome
  | .getPrevDigestFromBlock i => ∃ b, run.chain i = some b ∧ sizeofBlockHeader ≤ b.bytes.length
  | .getLastBlockNum => NoGapAbove run.chain run.replica.bcDbAdapter.lastKnownBlock
  | .hasBlock _ | .getLastReachableBlockNum => True

theorem Inv.contract_getBlock (h : Inv run) (i : BlockId) :
    run.Contract (.getBlock i) ↔ (run.chain i).isSome := by
  simp only [Contract, getBlock, h.refines.getBlockById]
  constructor
  · intro hc
    exact hc.1.symm
  · intro hs
    obtain ⟨b, hb⟩ := Option.isSome_iff_exists.1 hs
    simp [hb]

theorem Inv.contract_getPrevDigestFromBlock (h : Inv run) (i : BlockId) :
    run.Contract (.getPrevDigestFromBlock i) ↔
      ∃ b, run.chain i = some b ∧ sizeofBlockHeader ≤ b.bytes.length := by
  simp only [Contract, getPrevDigestFromBlock, h.refines.getBlockById]
  cases hi : run.chain i with
  | none => simp [sizeofBlockHeader]
  | some b =>
    by_cases hheader : sizeofBlockHeader ≤ b.bytes.length
    · simp [not_lt.2 hheader, hheader]
    · simp [not_le.1 hheader, hheader]

/-- **The storage contract.** After any calls that add blocks under new ids and stay inside of their
    buffers (`Allowed`), in any order, of any size and with queries in between, a query is answered as
    the state transfer expects exactly if it is one of `Answerable`. -/
theorem contract_iff (h : Reaches cfg {} run) (hlast : run.chain (Fin.last _) = none) (q : Query) :
    run.Contract q ↔ run.Answerable q := by
  have hinv := h.inv
  have hcache := h.cacheInv hlast
  cases q with
  | hasBlock i =>
    obtain ⟨m, hstores, hblocks, -⟩ := hinv.refines
    refine iff_of_true ?_ trivial
    rw [Contract, hasBlock, hstores.hasBlockId, hblocks, Option.isSome_map]
  | getBlock i => exact hinv.contract_getBlock i
  | getPrevDigestFromBlock i => exact hinv.contract_getPrevDigestFromBlock i
  | getLastBlockNum =>
    obtain ⟨n, hn⟩ := exists_isLargest run.chain
    obtain ⟨-, hiff⟩ := hinv.refines.getLastBlock hlast hn (hcache.lastKnown n hn)
    rw [Answerable, ← hiff]
    constructor
    · intro hc
      exact IsLargest.unique hc hn
    · intro heq
      rw [← heq] at hn
      exact hn
  | getLastReachableBlockNum =>
    exact iff_of_true (hinv.refines.getLastReachableBlock hlast hcache.reachable) trivial

/-- Blocks 3, 4 and 1 are stored, and block 2 is missing. -/
theorem contract_iff_callsOfTransfer :
    ∃ run, Reaches zeroDigests {} run ∧ run.chain (Fin.last _) = none ∧ run.Contract (.getBlock 3) ∧
      run.Contract .getLastReachableBlockNum ∧ ¬ run.Contract (.getPrevDigestFromBlock 2) ∧
      run.replica.getLastReachableBlockNum.1 = 1 := by
  obtain ⟨run, hreaches, hlast, hthree, htwo, hreachable⟩ : ∃ run, Reaches zeroDigests {} run ∧
      run.chain (Fin.last _) = none ∧ (run.chain 3).isSome ∧ run.chain 2 = none ∧
      run.replica.getLastReachableBlockNum.1 = 1 :=
    Machine.exists_reaches callsOfTransfer (by decide +kernel)
  refine ⟨run, hreaches, hlast, (contract_iff hreaches hlast _).2 hthree,
    (contract_iff hreaches hlast _).2 trivial, fun hc => ?_, hreachable⟩
  obtain ⟨b, hstored, -⟩ := (contract_iff hreaches hlast (.getPrevDigestFromBlock 2)).1 hc
  rw [htwo] at hstored
  simp at hstored

/-- A transfer that has only put block 5 is told that 1 is the largest id, that block 2 is stored and
    empty, and reads the digest of block 2 at no address. -/
theorem contract_fails_after_putBlock_five :
    ∃ run, Reaches zeroDigests {} run ∧ (run.chain 5).isSome ∧ run.chain 2 = none ∧
      run.replica.getLastBlockNum.1 = 1 ∧ ¬ run.Contract .getLastBlockNum ∧
      run.replica.getBlock 2 = (true, []) ∧ ¬ run.Contract (.getBlock 2) ∧
      run.replica.getPrevDigestFromBlock 2 = none ∧ ¬ run.Contract (.getPrevDigestFromBlock 2) := by
  obtain ⟨run, hreaches, hfive, htwo, hnum, hblock, hdigest⟩ : ∃ run, Reaches zeroDigests {} run ∧
      (run.chain 5).isSome ∧ run.chain 2 = none ∧ run.replica.getLastBlockNum.1 = 1 ∧
      run.replica.getBlock 2 = (true, []) ∧ run.replica.getPrevDigestFromBlock 2 = none :=
    Machine.exists_reaches
      [.putBlock 5 (blockBytes [([1], [30])] (replicate 32 0))] (by decide +kernel)
  refine ⟨run, hreaches, hfive, htwo, hnum, fun hc => ?_, hblock, fun hc => ?_, hdigest,
    fun hc => ?_⟩
  · have hle := IsLargest.le hc 5 hfive
    rw [hnum] at hle
    exact absurd hle (by decide)
  · have hresult := hc.1
    rw [hblock, htwo] at hresult
    simp at hresult
  · obtain ⟨digest, hresult⟩ := hc.1
    rw [hdigest] at hresult
    simp at hresult

end Run

end ConcordBft.SimpleKVBC
