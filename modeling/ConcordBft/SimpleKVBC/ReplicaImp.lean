import ConcordBft.Failure
import ConcordBft.Lib.Machine
import ConcordBft.SimpleKVBC.BlockchainDBAdapter
import ConcordBft.SimpleKVBC.Blocks

set_option autoImplicit false

/-! # The key-value blockchain (`tests/simpleKVBC/src/ReplicaImp.cpp`)

`ReplicaImp` adds blocks in two ways. The application adds the block after the last one (`addBlock`),
and the state transfer puts blocks with any id (`putBlock`). Both write the block and, for each of its
keys, an entry with the value and the id. In between the state transfer asks for blocks and block
numbers, and the application reads keys.

A run has a second component, the blocks that were added so far by their id. The database refines it
(`Inv`): the block record of an id is its bytes, and the data records are what its updates say. -/

namespace ConcordBft.SimpleKVBC

open Checked OrderedMap

/-- `maxBlockSize` and the digest of a block. -/
structure KVBCConfig where
  maxBlockSize : ℕ
  computeBlockDigest : BlockId → Bytes → Bytes
  length_digest : ∀ i block, (computeBlockDigest i block).length = 32

/-- The replica of the store. -/
structure ReplicaImp where
  lastBlock : BlockId := 0
  bcDbAdapter : BlockchainDBAdapter := {}
deriving DecidableEq, Repr

namespace ReplicaImp

/-! ## Adding blocks -/

/-- An entry for each key of a block. -/
def updateKeys (a : BlockchainDBAdapter) (blockId : BlockId) (updates : List KeyValuePair) :
    BlockchainDBAdapter :=
  updates.foldl (fun a kv => a.updateKey kv.1 blockId kv.2) a

variable (cfg : KVBCConfig) (r : ReplicaImp)

/-- The digest of the last block. -/
def digestOfPrev : Except Failure Bytes :=
  if r.lastBlock = 0 then pure (List.replicate 32 0)
  else do
    let (prevBlock, found) := r.bcDbAdapter.getBlockById r.lastBlock
    Assert (found = true)
    pure (cfg.computeBlockDigest r.lastBlock prevBlock)

/-- The block that `addBlock` makes, and the updates that are in it. -/
def newBlock (updates : List KeyValuePair) : Except Failure (Bytes × List KeyValuePair) := do
  let digestOfPrev ← r.digestOfPrev cfg
  createBlockFromUpdates updates digestOfPrev

/-- `addBlock`: the new state and `outBlockId`, or `none` with a status that is not `OK`. -/
def addBlockInternal (updates : List KeyValuePair) :
    Except Failure (ReplicaImp × Option BlockId) := do
  let block := r.lastBlock + 1
  let (blockRaw, updatesInNewBlock) ← r.newBlock cfg updates
  if blockRaw.length = 0 then pure (r, none)
  else if cfg.maxBlockSize < blockRaw.length then pure (r, none)
  else pure ({
    lastBlock := block
    bcDbAdapter := updateKeys (r.bcDbAdapter.addBlock block blockRaw) block updatesInNewBlock },
    some block)

/-- `putBlock`. The header of the block is taken as it is: what would be read outside of the block is
    not modelled. -/
def insertBlockInternal (blockId : BlockId) (block : Bytes) : Except Failure ReplicaImp :=
  let lastBlock := if r.lastBlock < blockId then blockId else r.lastBlock
  let (blockRaw, found) := r.bcDbAdapter.getBlockById blockId
  -- a block with the same id stays, whether it is the same block or not
  if found ∧ 0 < blockRaw.length then pure { r with lastBlock }
  else if block.length = 0 then .error .assertion
  else
    match blockElements block with
    | none => .error .notModelled
    | some updates =>
      pure {
        lastBlock
        bcDbAdapter := (updateKeys r.bcDbAdapter blockId updates).addBlock blockId block }

/-! ## Queries -/

/-- Whether a block is stored. -/
def hasBlock (blockId : BlockId) : Bool := r.bcDbAdapter.hasBlockId blockId

/-- The result and the bytes that are copied to `outBlock`. The status of `getBlockById` is `OK`, so
    the result is true. -/
def getBlock (blockId : BlockId) : Bool × Bytes := (true, (r.bcDbAdapter.getBlockById blockId).1)

/-- The result and the digest. The digest is copied from the block also where there is none; `none`
    if it is read outside of the block. -/
def getPrevDigestFromBlock (blockId : BlockId) : Option (Bool × Bytes) :=
  let blockRaw := (r.bcDbAdapter.getBlockById blockId).1
  if blockRaw.length < sizeofBlockHeader then none else some (true, prevBlockDigest blockRaw)

/-- The new state holds the result in its cache. -/
def getLastBlockNum : BlockId × ReplicaImp :=
  let a := r.bcDbAdapter.getLastBlock
  (a.lastKnownBlock, { r with bcDbAdapter := a })

def getLastReachableBlockNum : BlockId × ReplicaImp :=
  let a := r.bcDbAdapter.getLastReachableBlock
  (a.lastKnownReachableBlock, { r with bcDbAdapter := a })

/-- `get` with a read version. -/
def get (readVersion : BlockId) (key : Bytes) : Bytes × BlockId :=
  r.bcDbAdapter.getKeyByReadVersion readVersion key

def mayHaveConflictBetween (key : Bytes) (fromBlock toBlock : BlockId) : Bool :=
  if (r.get toBlock key).2 < fromBlock then false else true

end ReplicaImp

/-! ## Runs -/

/-- A block that was added: its bytes, and the keys with their values. -/
structure StoredBlock where
  bytes : Bytes
  updates : List KeyValuePair
deriving DecidableEq, Repr

/-- The calls that change the state. -/
inductive Call where
  | addBlock (updates : List KeyValuePair)
  | putBlock (blockId : BlockId) (block : Bytes)
  | getLastBlockNum
  | getLastReachableBlockNum
deriving DecidableEq, Repr

/-- The storage together with the blocks that were added to it. -/
structure Run where
  replica : ReplicaImp := {}
  chain : BlockId → Option StoredBlock := fun _ => none

namespace Run

/-- The block under a new id. -/
def store (chain : BlockId → Option StoredBlock) (blockId : BlockId) (b : StoredBlock) :
    BlockId → Option StoredBlock :=
  Function.update chain blockId (some b)

@[simp]
theorem store_self (chain : BlockId → Option StoredBlock) (blockId : BlockId) (b : StoredBlock) :
    store chain blockId b blockId = some b := Function.update_self _ _ _

variable {chain : BlockId → Option StoredBlock}

theorem store_of_ne {blockId i : BlockId} {b : StoredBlock} (h : i ≠ blockId) :
    store chain blockId b i = chain i := Function.update_of_ne h _ _

theorem eq_or_of_store {blockId i : BlockId} {b b' : StoredBlock}
    (h : store chain blockId b i = some b') : b' = b ∨ chain i = some b' := by
  by_cases hi : i = blockId
  · subst hi
    rw [store_self] at h
    exact Or.inl (Option.some.inj h).symm
  · rw [store_of_ne hi] at h
    exact Or.inr h

/-- One call; `none` if it does not return. -/
def next (cfg : KVBCConfig) (run : Run) : Call → Option Run
  | .addBlock updates =>
    match run.replica.addBlockInternal cfg updates, run.replica.newBlock cfg updates with
    | .ok (r, some block), .ok (blockRaw, updatesInNewBlock) =>
      some ⟨r, store run.chain block ⟨blockRaw, updatesInNewBlock⟩⟩
    | .ok (r, none), _ => some ⟨r, run.chain⟩
    | _, _ => none
  | .putBlock blockId block =>
    match run.replica.insertBlockInternal blockId block, blockElements block with
    | .ok r, some updates => some ⟨r, store run.chain blockId ⟨block, updates⟩⟩
    | _, _ => none
  | .getLastBlockNum => some { run with replica := run.replica.getLastBlockNum.2 }
  | .getLastReachableBlockNum => some { run with replica := run.replica.getLastReachableBlockNum.2 }

/-- Blocks are added under new ids, and nothing outside of a block is written or read: the size of a
    block that is made is not an `int16_t` that has wrapped to a positive one, and a block that is put
    has its elements inside. A block that is too big may be added, and becomes one byte. -/
def Allowed (run : Run) : Call → Prop
  | .addBlock updates =>
    InBuffer updates ∧ run.chain (run.replica.lastBlock + 1) = none
  | .putBlock blockId block => run.chain blockId = none ∧ (blockElements block).isSome = true
  | .getLastBlockNum | .getLastReachableBlockNum => True

instance (run : Run) : (call : Call) → Decidable (run.Allowed call)
  | .addBlock _ => inferInstanceAs (Decidable (_ ∧ _))
  | .putBlock _ _ => inferInstanceAs (Decidable (_ ∧ _))
  | .getLastBlockNum => isTrue trivial
  | .getLastReachableBlockNum => isTrue trivial

/-- The states of the storage after any calls. -/
def Reaches (cfg : KVBCConfig) : Run → Run → Prop := Machine.Reaches (next cfg) Allowed

/-! ## The database refines the blocks -/

/-- The database has the records of the blocks. -/
def Refines (a : BlockchainDBAdapter) (chain : BlockId → Option StoredBlock) : Prop :=
  ∃ m : OrderedMap DbKey Bytes, a.Stores m ∧
    (∀ i, m.find? (.block i) = (chain i).map (·.bytes)) ∧
    ∀ key i, m.find? (.data key i) = (chain i).bind fun b => valueIn b.updates key

/-- The updates of a block are its elements, unless it is the one byte of a block that was too big. -/
def IsBlock (b : StoredBlock) : Prop := blockElements b.bytes = some b.updates ∨ b = ⟨[0], []⟩

/-- The invariant of the runs. -/
structure Inv (run : Run) : Prop where
  refines : Refines run.replica.bcDbAdapter run.chain
  lastBlock_stored : run.replica.lastBlock = 0 ∨ (run.chain run.replica.lastBlock).isSome
  elements : ∀ i b, run.chain i = some b → IsBlock b

theorem updateKeys_stores {a : BlockchainDBAdapter} {m : OrderedMap DbKey Bytes} (h : a.Stores m)
    (blockId : BlockId) (updates : List KeyValuePair) :
    ∃ m', (ReplicaImp.updateKeys a blockId updates).Stores m' ∧
      (∀ i, m'.find? (.block i) = m.find? (.block i)) ∧
      (∀ key i, i ≠ blockId → m'.find? (.data key i) = m.find? (.data key i)) ∧
      ∀ key, m'.find? (.data key blockId) =
        (valueIn updates key).or (m.find? (.data key blockId)) := by
  induction updates generalizing a m with
  | nil => exact ⟨m, h, fun _ => rfl, fun _ _ _ => rfl, fun _ => rfl⟩
  | cons kv updates ih =>
    obtain ⟨key', val⟩ := kv
    obtain ⟨m', hstores, hblock, hother, hdata⟩ := ih (h.updateKey key' blockId val)
    refine ⟨m', hstores, fun i => ?_, fun key i hi => ?_, fun key => ?_⟩
    · rw [hblock, find?_insert, if_neg (by simp)]
    · rw [hother key i hi, find?_insert, if_neg (by simp [hi])]
    · rw [hdata, find?_insert, valueIn_cons]
      by_cases hkey : key' = key
      · subst hkey
        cases valueIn updates key' <;> simp
      · have hne : DbKey.data key blockId ≠ DbKey.data key' blockId := by simp [Ne.symm hkey]
        rw [if_neg hne, if_neg hkey, Option.or_none]

theorem Refines.initial : Refines {} fun _ => none := by
  refine ⟨empty, rfl, ?_, ?_⟩
  · intro i
    rfl
  · intro key i
    rfl

/-- The records of a new block may be written in any order. -/
theorem Refines.store {a a' : BlockchainDBAdapter} {chain : BlockId → Option StoredBlock}
    {blockId : BlockId} {b : StoredBlock} (h : Refines a chain) (hnew : chain blockId = none)
    (ha' : a' = ReplicaImp.updateKeys (a.addBlock blockId b.bytes) blockId b.updates ∨
      a' = (ReplicaImp.updateKeys a blockId b.updates).addBlock blockId b.bytes) :
    Refines a' (Run.store chain blockId b) := by
  obtain ⟨m, hstores, hblocks, hdata⟩ := h
  have hnoData : ∀ key, m.find? (.data key blockId) = none := by
    intro key
    rw [hdata, hnew]
    rfl
  -- what a map has to look like
  suffices hsuff : ∃ m', a'.Stores m' ∧ m'.find? (.block blockId) = some b.bytes ∧
      (∀ i, i ≠ blockId → m'.find? (.block i) = m.find? (.block i)) ∧
      (∀ key i, i ≠ blockId → m'.find? (.data key i) = m.find? (.data key i)) ∧
      ∀ key, m'.find? (.data key blockId) = valueIn b.updates key by
    obtain ⟨m', hstores', hnewBlock, hblocks', hother, hnewData⟩ := hsuff
    refine ⟨m', hstores', fun i => ?_, fun key i => ?_⟩
    · by_cases hi : i = blockId
      · rw [hi, hnewBlock, store_self]
        rfl
      · rw [hblocks' i hi, hblocks, store_of_ne hi]
    · by_cases hi : i = blockId
      · rw [hi, hnewData, store_self]
        rfl
      · rw [hother key i hi, hdata, store_of_ne hi]
  rcases ha' with rfl | rfl
  · obtain ⟨m', hstores', hblock, hother, hnewData⟩ :=
      updateKeys_stores (hstores.addBlock blockId b.bytes) blockId b.updates
    refine ⟨m', hstores', ?_, fun i hi => ?_, fun key i hi => ?_, fun key => ?_⟩
    · rw [hblock, find?_insert, if_pos rfl]
    · rw [hblock, find?_insert, if_neg (by simp [hi])]
    · rw [hother key i hi, find?_insert, if_neg (by simp)]
    · rw [hnewData, find?_insert, if_neg (by simp), hnoData, Option.or_none]
  · obtain ⟨m', hstores', hblock, hother, hnewData⟩ := updateKeys_stores hstores blockId b.updates
    refine ⟨m'.insert (.block blockId) b.bytes, hstores'.addBlock blockId b.bytes, ?_,
      fun i hi => ?_, fun key i hi => ?_, fun key => ?_⟩
    · rw [find?_insert, if_pos rfl]
    · rw [find?_insert, if_neg (by simp [hi]), hblock]
    · rw [find?_insert, if_neg (by simp), hother key i hi]
    · rw [find?_insert, if_neg (by simp), hnewData, hnoData, Option.or_none]

theorem Refines.getBlockById {a : BlockchainDBAdapter} (h : Refines a chain) (i : BlockId) :
    a.getBlockById i = (((chain i).map (·.bytes)).getD [], (chain i).isSome) := by
  obtain ⟨m, hstores, hblocks, -⟩ := h
  rw [hstores.getBlockById, hblocks, Option.isSome_map]

/-! ## One call -/

variable {cfg : KVBCConfig} {run : Run}

theorem Inv.initial : Inv {} := ⟨Refines.initial, Or.inl rfl, by simp⟩

theorem Inv.digestOfPrev (cfg : KVBCConfig) (h : Inv run) :
    ∃ digest, run.replica.digestOfPrev cfg = .ok digest ∧ digest.length = 32 := by
  unfold ReplicaImp.digestOfPrev
  split_ifs with hzero
  · exact ⟨_, rfl, by simp⟩
  · have hfound := h.lastBlock_stored.resolve_left hzero
    rw [h.refines.getBlockById]
    dsimp only
    rw [assert_bind_of hfound]
    exact ⟨_, rfl, cfg.length_digest _ _⟩

theorem Inv.newBlock_of_fits (cfg : KVBCConfig) (h : Inv run) {updates : List KeyValuePair}
    (hfits : blockSize updates < 2 ^ 15) :
    ∃ digest, digest.length = 32 ∧
      run.replica.newBlock cfg updates = .ok (blockBytes updates digest, updates) := by
  obtain ⟨digest, hdigest, hlength⟩ := h.digestOfPrev cfg
  have hpos : ¬ asInt16 (blockSize updates) < 0 := by
    rw [asInt16_of_fits (by omega) (by omega)]
    omega
  refine ⟨digest, hlength, ?_⟩
  rw [ReplicaImp.newBlock, hdigest, ok_bind, createBlockFromUpdates_eq, if_neg hpos, if_pos hfits]
  rfl

/-- A block whose size is a negative `int16_t`. -/
theorem Inv.newBlock_of_neg (cfg : KVBCConfig) (h : Inv run) {updates : List KeyValuePair}
    (hneg : asInt16 (blockSize updates) < 0) :
    run.replica.newBlock cfg updates = .ok ([0], []) := by
  obtain ⟨digest, hdigest, -⟩ := h.digestOfPrev cfg
  rw [ReplicaImp.newBlock, hdigest, ok_bind, createBlockFromUpdates_eq, if_pos hneg]
  rfl

theorem Inv.newBlock (cfg : KVBCConfig) (h : Inv run) {updates : List KeyValuePair}
    (hin : InBuffer updates) :
    ∃ blockRaw stored, run.replica.newBlock cfg updates = .ok (blockRaw, stored) ∧
      IsBlock ⟨blockRaw, stored⟩ := by
  rcases hin with hneg | hfits
  · exact ⟨[0], [], h.newBlock_of_neg cfg hneg, Or.inr rfl⟩
  · obtain ⟨digest, hlength, hnew⟩ := h.newBlock_of_fits cfg hfits
    exact ⟨_, _, hnew, Or.inl (blockElements_blockBytes hlength hfits)⟩

theorem Inv.addBlock (cfg : KVBCConfig) (h : Inv run) {updates : List KeyValuePair}
    (hallowed : run.Allowed (.addBlock updates)) :
    ∃ run', next cfg run (.addBlock updates) = some run' ∧ Inv run' := by
  obtain ⟨hin, hfree⟩ := hallowed
  obtain ⟨blockRaw, stored, hnew, hblock⟩ := h.newBlock cfg hin
  unfold next ReplicaImp.addBlockInternal
  simp only [hnew, ok_bind]
  split_ifs with hempty hbig
  · exact ⟨_, rfl, h⟩
  · exact ⟨_, rfl, h⟩
  refine ⟨_, rfl, h.refines.store hfree (Or.inl rfl), Or.inr ?_, ?_⟩
  · simp
  · intro i b hb
    rcases eq_or_of_store hb with rfl | hold
    · exact hblock
    · exact h.elements i b hold

theorem length_of_blockElements {block : Bytes} {updates : List KeyValuePair}
    (h : blockElements block = some updates) : 2 ≤ block.length := by
  unfold blockElements at h
  by_contra hlt
  rw [if_pos (by omega)] at h
  simp at h

/-- A block that is put under a new id. -/
theorem Inv.insertBlockInternal (h : Inv run) {blockId : BlockId} {block : Bytes}
    {updates : List KeyValuePair} (hnew : run.chain blockId = none)
    (hupdates : blockElements block = some updates) :
    ∃ r', run.replica.insertBlockInternal blockId block = .ok r' ∧
      Refines r'.bcDbAdapter (store run.chain blockId ⟨block, updates⟩) ∧
      r'.lastBlock = if run.replica.lastBlock < blockId then blockId else run.replica.lastBlock := by
  have hheader := length_of_blockElements hupdates
  have hnotFound : ¬ (((run.chain blockId).isSome = true) ∧
      0 < (((run.chain blockId).map (·.bytes)).getD []).length) := by simp [hnew]
  unfold ReplicaImp.insertBlockInternal
  rw [h.refines.getBlockById, hupdates]
  dsimp only
  rw [if_neg hnotFound, if_neg (by omega)]
  exact ⟨_, rfl, h.refines.store hnew (Or.inr rfl), rfl⟩

theorem Inv.putBlock (cfg : KVBCConfig) (h : Inv run) {blockId : BlockId} {block : Bytes}
    (hallowed : run.Allowed (.putBlock blockId block)) :
    ∃ run', next cfg run (.putBlock blockId block) = some run' ∧ Inv run' := by
  obtain ⟨hnew, hlegal⟩ := hallowed
  obtain ⟨updates, hupdates⟩ := Option.isSome_iff_exists.1 hlegal
  obtain ⟨r', hinsert, hrefines, hlast⟩ := h.insertBlockInternal hnew hupdates
  unfold next
  simp only [hinsert, hupdates]
  refine ⟨_, rfl, hrefines, ?_, ?_⟩
  · simp only [hlast]
    by_cases hlt : run.replica.lastBlock < blockId
    · simp [hlt]
    · rcases h.lastBlock_stored with hzero | hstored
      · left
        exact (if_neg hlt).trans hzero
      · right
        have hne : run.replica.lastBlock ≠ blockId := by
          intro heq
          rw [heq, hnew] at hstored
          simp at hstored
        simp only [if_neg hlt, store_of_ne hne, hstored]
  · intro i b hb
    rcases eq_or_of_store hb with rfl | hold
    · exact Or.inl hupdates
    · exact h.elements i b hold

/-- **Every call returns and keeps the invariant.** -/
theorem Inv.next (cfg : KVBCConfig) (h : Inv run) {call : Call} (hallowed : run.Allowed call) :
    ∃ run', Run.next cfg run call = some run' ∧ Inv run' := by
  cases call with
  | addBlock updates => exact h.addBlock cfg hallowed
  | putBlock blockId block => exact h.putBlock cfg hallowed
  | getLastBlockNum | getLastReachableBlockNum =>
    exact ⟨_, rfl, h.refines, h.lastBlock_stored, h.elements⟩

theorem Reaches.inv (h : Reaches cfg {} run) : Inv run := by
  refine Machine.Reaches.invariant Inv Inv.initial ?_ h
  intro u call u' hinv hallowed hnext
  obtain ⟨u'', hnext', hinv'⟩ := hinv.next cfg hallowed
  obtain rfl := Option.some.inj (hnext.symm.trans hnext')
  exact hinv'

end Run

end ConcordBft.SimpleKVBC
