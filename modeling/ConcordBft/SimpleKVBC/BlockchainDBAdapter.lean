import ConcordBft.SimpleKVBC.DbKeys

set_option autoImplicit false

/-! # The database of the key-value blockchain (`BlockchainDBAdapter.cpp`, `InMemoryDBClient.cpp`)

The adapter keeps blocks and data in one ordered map and caches two block numbers. An iterator of the
database is the list of the entries from its position on.

What the functions do to the bytes is stated over the key space: `Stores m` says that the database
holds the entries of an ordered map of `DbKey`s. -/

namespace ConcordBft

open ComparatorMap

namespace SimpleKVBC

/-- `lastKnownBlock` and `lastKnownReachableBlock` are caches that only the last two functions of the
    class use. -/
structure BlockchainDBAdapter where
  map : List (Bytes × Bytes) := []
  lastKnownBlock : BlockId := 0
  lastKnownReachableBlock : BlockId := 0
deriving DecidableEq, Repr

namespace BlockchainDBAdapter

/-- `InMemoryDBClient::put` -/
def put (a : BlockchainDBAdapter) (key value : Bytes) : BlockchainDBAdapter :=
  { a with map := ComparatorMap.put InMemKeyComp key value a.map }

variable (a : BlockchainDBAdapter)

/-- Stores a block. -/
def addBlock (blockId : BlockId) (blockRaw : Bytes) : BlockchainDBAdapter :=
  a.put (genBlockDbKey blockId) blockRaw

/-- Stores a value of a block. -/
def updateKey (key : Bytes) (block : BlockId) (value : Bytes) : BlockchainDBAdapter :=
  a.put (genDataDbKey key block) value

/-- The iterator after `seekAtLeast`. -/
def seekAtLeast (searchKey : Bytes) : List (Bytes × Bytes) := seek InMemKeyComp searchKey a.map

/-- The entry with the key of the client. -/
def composedToSimple (p : Bytes × Bytes) : Bytes × Bytes :=
  if p.1.length = 0 then p else (extractKeyFromKeyComposedWithBlockId p.1, p.2)

/-- Returns the value and the block it is from. -/
def getKeyByReadVersion (readVersion : BlockId) (key : Bytes) : Bytes × BlockId :=
  match a.seekAtLeast (genDataDbKey key readVersion) with
  | [] => ([], 0)
  | p :: _ =>
    let currentReadVersion := extractBlockIdFromKey p.1
    if currentReadVersion ≤ readVersion ∧ (composedToSimple p).1 = key then
      (p.2, currentReadVersion)
    else ([], 0)

/-- The block and whether it was found. The status is `OK` in both cases. -/
def getBlockById (blockId : BlockId) : Bytes × Bool :=
  match find InMemKeyComp (genBlockDbKey blockId) a.map with
  | none => ([], false)
  | some blockRaw => (blockRaw, true)

/-- Whether a block is stored. -/
def hasBlockId (blockId : BlockId) : Bool :=
  (find InMemKeyComp (genBlockDbKey blockId) a.map).isSome

/-- The loop of `getLastBlock`: one more for each block record. -/
def countBlocks : List (Bytes × Bytes) → BlockId → BlockId
  | [], lastKnownBlock => lastKnownBlock
  | kvp :: iter, lastKnownBlock =>
    if extractTypeFromKey kvp.1 = EDBKeyType.E_DB_KEY_TYPE_BLOCK.value then
      countBlocks iter (lastKnownBlock + 1)
    else lastKnownBlock

/-- Counts on from the last known block. -/
def getLastBlock : BlockchainDBAdapter :=
  { a with
    lastKnownBlock :=
      countBlocks (a.seekAtLeast (genBlockDbKey (a.lastKnownBlock + 1))) a.lastKnownBlock }

/-- The loop of `getLastReachableBlock`: as long as the next block record has the next id. -/
def countReachable : List (Bytes × Bytes) → BlockId → BlockId
  | [], lastKnownReachableBlock => lastKnownReachableBlock
  | kvp :: iter, lastKnownReachableBlock =>
    if extractTypeFromKey kvp.1 = EDBKeyType.E_DB_KEY_TYPE_BLOCK.value ∧
        extractBlockIdFromKey kvp.1 = lastKnownReachableBlock + 1 then
      countReachable iter (lastKnownReachableBlock + 1)
    else lastKnownReachableBlock

def getLastReachableBlock : BlockchainDBAdapter :=
  { a with
    lastKnownReachableBlock :=
      countReachable (a.seekAtLeast (genBlockDbKey (a.lastKnownReachableBlock + 1)))
        a.lastKnownReachableBlock }

/-! ## Over the key space -/

/-- The database holds the entries of `m`. -/
def Stores (m : OrderedMap DbKey Bytes) : Prop := a.map = image DbKey.bytes m

variable {a : BlockchainDBAdapter} {m : OrderedMap DbKey Bytes}

section

variable (h : a.Stores m)
include h

theorem Stores.put (k : DbKey) (v : Bytes) : (a.put k.bytes v).Stores (m.insert k v) := by
  unfold Stores at *
  rw [BlockchainDBAdapter.put, h]
  exact ComparatorMap.put_image represents_inMemKeyComp m k v

theorem Stores.addBlock (i : BlockId) (blockRaw : Bytes) :
    (a.addBlock i blockRaw).Stores (m.insert (.block i) blockRaw) := h.put (.block i) blockRaw

theorem Stores.updateKey (key : Bytes) (i : BlockId) (value : Bytes) :
    (a.updateKey key i value).Stores (m.insert (.data key i) value) := h.put (.data key i) value

theorem Stores.seekAtLeast (k : DbKey) :
    a.seekAtLeast k.bytes = image DbKey.bytes (atLeast m k) := by
  unfold Stores at h
  rw [BlockchainDBAdapter.seekAtLeast, h]
  exact seek_image represents_inMemKeyComp m k

theorem Stores.find (k : DbKey) : find InMemKeyComp k.bytes a.map = m.find? k := by
  unfold Stores at h
  rw [h]
  exact find_image represents_inMemKeyComp m k

theorem Stores.getBlockById (i : BlockId) :
    a.getBlockById i = ((m.find? (.block i)).getD [], (m.find? (.block i)).isSome) := by
  unfold BlockchainDBAdapter.getBlockById
  rw [show genBlockDbKey i = (DbKey.block i).bytes from rfl, h.find]
  cases m.find? (.block i) <;> rfl

theorem Stores.hasBlockId (i : BlockId) : a.hasBlockId i = (m.find? (.block i)).isSome := by
  rw [BlockchainDBAdapter.hasBlockId, show genBlockDbKey i = (DbKey.block i).bytes from rfl, h.find]

/-! ## Reading by version -/

/-- The lookup is one lower bound in the key space. -/
theorem Stores.getKeyByReadVersion_eq (readVersion : BlockId) (key : Bytes) :
    a.getKeyByReadVersion readVersion key =
      match m.lowerBound (.data key readVersion) with
      | some (.data key' i, x) => if i ≤ readVersion ∧ key' = key then (x, i) else ([], 0)
      | _ => ([], 0) := by
  unfold BlockchainDBAdapter.getKeyByReadVersion
  rw [show genDataDbKey key readVersion = (DbKey.data key readVersion).bytes from rfl, h.seekAtLeast,
    ← head?_atLeast, image]
  cases hentries : (atLeast m (.data key readVersion)).entries with
  | nil => rfl
  | cons e rest =>
    obtain ⟨k, x⟩ := e
    have hle : DbKey.data key readVersion ≤ k := by
      have hmem : (k, x) ∈ atLeast m (.data key readVersion) := by
        rw [OrderedMap.mem_def, hentries]
        simp
      simpa using (OrderedMap.mem_filter_iff.1 hmem).2
    cases k with
    | block i => exact absurd hle (not_le.2 (DbKey.block_lt_data i key readVersion))
    | data key' i =>
      have hlength : (genDbKey .E_DB_KEY_TYPE_KEY key' i).length ≠ 0 := by
        rw [length_genDbKey]
        omega
      simp only [List.map_cons, List.head?_cons, DbKey.bytes, genDataDbKey, composedToSimple,
        hlength, if_false, extractBlockIdFromKey_genDbKey, extractKey_genDbKey]

/-- **A read finds the newest version** that is not above the read version. -/
theorem Stores.getKeyByReadVersion_of_mem {readVersion i : BlockId} {key x : Bytes}
    (hmem : (DbKey.data key i, x) ∈ m) (hle : i ≤ readVersion)
    (hnewest : ∀ j y, (DbKey.data key j, y) ∈ m → j ≤ readVersion → j ≤ i) :
    a.getKeyByReadVersion readVersion key = (x, i) := by
  have hbound : m.lowerBound (.data key readVersion) = some (.data key i, x) := by
    refine OrderedMap.lowerBound_eq_some_iff.2 ⟨hmem, DbKey.data_le_data_same.2 hle, ?_⟩
    intro b hb hkb
    obtain ⟨kb, y⟩ := b
    by_contra hlt
    have hlt := not_le.1 hlt
    -- an entry in front of it has the same key and is newer
    cases kb with
    | block j => exact absurd hkb (not_le.2 (DbKey.block_lt_data j key readVersion))
    | data key' j =>
      have hkey : key' = key := by
        by_contra hne
        have h₁ := DbKey.data_lt_data.1 (lt_of_le_of_ne hkb fun heq =>
          hne (DbKey.data.inj heq).1.symm)
        have h₂ := DbKey.data_lt_data.1 hlt
        simp only [hne, Ne.symm hne, false_and, or_false] at h₁ h₂
        exact lt_asymm h₁ h₂
      subst hkey
      have hj := hnewest j y hb (DbKey.data_le_data_same.1 hkb)
      exact absurd (DbKey.data_le_data_same.2 hj) (not_le.2 hlt)
  rw [h.getKeyByReadVersion_eq, hbound]
  exact if_pos ⟨hle, rfl⟩

/-- **A read finds nothing** when no version is at or below the read version. -/
theorem Stores.getKeyByReadVersion_of_none {readVersion : BlockId} {key : Bytes}
    (hnone : ∀ j y, (DbKey.data key j, y) ∈ m → ¬ j ≤ readVersion) :
    a.getKeyByReadVersion readVersion key = ([], 0) := by
  rw [h.getKeyByReadVersion_eq]
  cases hbound : m.lowerBound (.data key readVersion) with
  | none => rfl
  | some e =>
    obtain ⟨k, x⟩ := e
    cases k with
    | block i => rfl
    | data key' i =>
      refine if_neg ?_
      rintro ⟨hle, rfl⟩
      exact hnone i x (OrderedMap.lowerBound_eq_some_iff.1 hbound).1 hle

end

end BlockchainDBAdapter

end SimpleKVBC

end ConcordBft
