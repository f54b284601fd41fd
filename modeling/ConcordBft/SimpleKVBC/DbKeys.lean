import ConcordBft.Lib.ComparatorMap
import ConcordBft.Lib.LittleEndian
import ConcordBft.Types
import Mathlib.Data.Sum.Order
import Mathlib.Data.Prod.Lex
import Mathlib.Data.List.Lex
import Mathlib.Order.Fin.Basic

set_option autoImplicit false

/-! # Composed database keys (`BlockchainDBAdapter.cpp`, `Comparators.cpp`)

The database of the key-value blockchain has one key space. A composed key is the type, the key and
the id of the block, one after the other as bytes, and the comparator takes the bytes apart again.
Blocks come first, in the order of their ids. Data comes after them, in the order of the keys; the
newest block comes first among the entries of one key. `DbKey` is the key space with that order, and
the comparator of the bytes agrees with it (`represents_inMemKeyComp`). -/

namespace ConcordBft.SimpleKVBC

open LittleEndian

/-- The number of a block, a `uint64_t`. -/
abbrev BlockId := Fin (2 ^ 64)

instance numOfBlockIds_neZero : NeZero (2 ^ 64 : ℕ) := ⟨by decide⟩

/-- The kinds of records. -/
inductive EDBKeyType where
  | E_DB_KEY_TYPE_BLOCK
  | E_DB_KEY_TYPE_KEY
deriving DecidableEq, Repr

/-- The number of a kind. -/
def EDBKeyType.value : EDBKeyType → ℕ
  | .E_DB_KEY_TYPE_BLOCK => 1
  | .E_DB_KEY_TYPE_KEY => 2

/-! ## Composing and taking apart -/

/-- `sizeof(EDBKeyType)` is 4 and `sizeof(BlockId)` is 8. -/
def genDbKey (type : EDBKeyType) (key : Bytes) (blockId : BlockId) : Bytes :=
  encode 4 type.value ++ (key ++ encode 8 blockId)

/-- The key of a block. -/
def genBlockDbKey (blockId : BlockId) : Bytes := genDbKey .E_DB_KEY_TYPE_BLOCK [] blockId

/-- The key of a value in a block. -/
def genDataDbKey (key : Bytes) (blockId : BlockId) : Bytes :=
  genDbKey .E_DB_KEY_TYPE_KEY key blockId

/-- The first byte. -/
def extractTypeFromKey (key : Bytes) : ℕ := (key.headD 0).toNat

/-- The last eight bytes of a key. -/
def extractBlockIdFromKey (key : Bytes) : BlockId := Fin.ofNat _ (decode (field key (key.length - 8) 8))

def extractKeyFromKeyComposedWithBlockId (composedKey : Bytes) : Bytes :=
  field composedKey 4 (composedKey.length - 8 - 4)

/-! ## Comparing -/

/-- `memcmp` of two buffers of the same length. -/
def memcmp : Bytes → Bytes → Int
  | a :: as, b :: bs => if a = b then memcmp as bs else (a.toNat : Int) - b.toNat
  | _, _ => 0

/-- `Slice::compare` -/
def sliceCompare (a b : Bytes) : Int :=
  let minLen := min a.length b.length
  let c := if 0 < minLen then memcmp (a.take minLen) (b.take minLen) else 0
  if c ≠ 0 then c
  else if a.length < b.length then -1
  else if b.length < a.length then 1
  else 0

/-- The order of the records. -/
def composedKeyComparison (a b : Bytes) : Int :=
  let aType := extractTypeFromKey a
  let bType := extractTypeFromKey b
  if aType ≠ bType then (aType : Int) - bType
  else if aType = EDBKeyType.E_DB_KEY_TYPE_BLOCK.value then
    let aId := extractBlockIdFromKey a
    let bId := extractBlockIdFromKey b
    if bId < aId then 1 else if aId = bId then 0 else -1
  else
    let keyComp := sliceCompare (extractKeyFromKeyComposedWithBlockId a)
      (extractKeyFromKeyComposedWithBlockId b)
    if keyComp = 0 then
      let aId := extractBlockIdFromKey a
      let bId := extractBlockIdFromKey b
      if aId < bId then 1 else if bId = aId then 0 else -1
    else keyComp

/-- The comparator of the map. -/
def InMemKeyComp (a b : Bytes) : Bool := composedKeyComparison a b < 0

/-! ## Keys of the database -/

/-- What a composed key stands for. -/
inductive DbKey where
  | block (id : BlockId)
  | data (key : Bytes) (id : BlockId)
deriving DecidableEq, Repr

namespace DbKey

/-- The composed key. -/
def bytes : DbKey → Bytes
  | block id => genBlockDbKey id
  | data key id => genDataDbKey key id

/-- Blocks before data, data by key, and the newest block of a key first. -/
def order : DbKey → BlockId ⊕ₗ (List ℕ ×ₗ BlockIdᵒᵈ)
  | block id => toLex (.inl id)
  | data key id => toLex (.inr (toLex (key.map UInt8.toNat, OrderDual.toDual id)))

theorem map_toNat_injective : Function.Injective (List.map UInt8.toNat) :=
  List.map_injective_iff.2 fun _ _ => UInt8.toNat_inj.1

theorem order_injective : Function.Injective order := by
  intro a b h
  cases a with
  | block id =>
    cases b with
    | block id' => simpa [order] using h
    | data key' id' => exact absurd h (by simp [order])
  | data key id =>
    cases b with
    | block id' => exact absurd h (by simp [order])
    | data key' id' =>
      simp only [order, EmbeddingLike.apply_eq_iff_eq, Sum.inr.injEq, Prod.mk.injEq] at h
      rw [map_toNat_injective h.1, h.2]

instance : LinearOrder DbKey := LinearOrder.lift' order order_injective

theorem lt_iff {a b : DbKey} : a < b ↔ order a < order b := Iff.rfl

theorem block_lt_block {i j : BlockId} : block i < block j ↔ i < j := by
  simp [lt_iff, order]

theorem block_lt_data (i : BlockId) (key : Bytes) (j : BlockId) : block i < data key j := by
  simp [lt_iff, order]

theorem not_data_lt_block (key : Bytes) (i j : BlockId) : ¬ data key i < block j := by
  simp [lt_iff, order]

theorem data_lt_data {key key' : Bytes} {i j : BlockId} :
    data key i < data key' j ↔
      key.map UInt8.toNat < key'.map UInt8.toNat ∨ key = key' ∧ j < i := by
  simp only [lt_iff, order, Sum.Lex.inr_lt_inr_iff, Prod.Lex.toLex_lt_toLex,
    OrderDual.toDual_lt_toDual]
  rw [map_toNat_injective.eq_iff]

/-- Among the entries of one key the newest comes first. -/
theorem data_le_data_same {key : Bytes} {i j : BlockId} : data key i ≤ data key j ↔ j ≤ i := by
  rw [← not_lt, data_lt_data]
  simp

end DbKey

/-! ## The comparator follows the order -/

variable (type : EDBKeyType) (key : Bytes) (id : BlockId)

theorem extractTypeFromKey_genDbKey : extractTypeFromKey (genDbKey type key id) = type.value := by
  cases type <;> rfl

theorem length_genDbKey : (genDbKey type key id).length = 4 + key.length + 8 := by
  simp only [genDbKey, List.length_append, length_encode]
  omega

theorem extractBlockIdFromKey_genDbKey : extractBlockIdFromKey (genDbKey type key id) = id := by
  have hfield : field (genDbKey type key id) ((genDbKey type key id).length - 8) 8 =
      encode 8 id := by
    rw [length_genDbKey]
    simp [genDbKey]
  rw [extractBlockIdFromKey, hfield, decode_encode_of_lt (by have := id.isLt; omega)]
  simp

theorem extractKey_genDbKey :
    extractKeyFromKeyComposedWithBlockId (genDbKey type key id) = key := by
  rw [extractKeyFromKeyComposedWithBlockId, length_genDbKey]
  exact field_append _ _ _ (length_encode 4 _) (by omega)

variable {key}

/-- `memcmp` does not look behind the end of the shorter slice. -/
theorem memcmp_take_min (a b : Bytes) :
    memcmp (a.take (min a.length b.length)) (b.take (min a.length b.length)) = memcmp a b := by
  induction a generalizing b with
  | nil => simp [memcmp]
  | cons x a ih =>
    cases b with
    | nil => simp [memcmp]
    | cons y b =>
      rw [List.length_cons, List.length_cons, Nat.succ_min_succ, List.take_succ_cons,
        List.take_succ_cons, memcmp, memcmp, ih]

theorem sliceCompare_eq (a b : Bytes) :
    sliceCompare a b =
      if memcmp a b ≠ 0 then memcmp a b
      else if a.length < b.length then -1
      else if b.length < a.length then 1
      else 0 := by
  have hc : (if 0 < min a.length b.length then
      memcmp (a.take (min a.length b.length)) (b.take (min a.length b.length)) else 0) =
      memcmp a b := by
    split_ifs with hpos
    · exact memcmp_take_min a b
    · rw [← memcmp_take_min, Nat.eq_zero_of_not_pos hpos]
      rfl
  unfold sliceCompare
  dsimp only
  rw [hc]

theorem sliceCompare_cons (x y : UInt8) (a b : Bytes) :
    sliceCompare (x :: a) (y :: b) =
      if x = y then sliceCompare a b else (x.toNat : Int) - y.toNat := by
  rw [sliceCompare_eq, sliceCompare_eq, memcmp]
  by_cases hxy : x = y
  · simp [hxy]
  · have hne : (x.toNat : Int) - y.toNat ≠ 0 := fun h => hxy (UInt8.toNat_inj.1 (by omega))
    rw [if_neg hxy, if_neg hxy, if_pos hne]

/-- **Slices are compared in lexicographic order**, a slice before its extensions. -/
theorem sliceCompare_spec (a b : Bytes) :
    (sliceCompare a b < 0 ↔ a.map UInt8.toNat < b.map UInt8.toNat) ∧
      (sliceCompare a b = 0 ↔ a = b) := by
  induction a generalizing b with
  | nil =>
    cases b with
    | nil | cons y b => simp [sliceCompare]
  | cons x a ih =>
    cases b with
    | nil => simp [sliceCompare]
    | cons y b =>
      rw [sliceCompare_cons, List.map_cons, List.map_cons, List.cons_lt_cons_iff]
      by_cases hxy : x = y
      · subst hxy
        simpa using ih b
      · have hne : x.toNat ≠ y.toNat := fun h => hxy (UInt8.toNat_inj.1 h)
        simp only [hxy, if_false, hne, false_and, or_false, List.cons.injEq, iff_false]
        omega

theorem compareIds_neg {i j : BlockId} :
    (if j < i then 1 else if i = j then 0 else -1 : Int) < 0 ↔ i < j := by
  rcases lt_trichotomy i j with h | h | h
  · simp [h, not_lt_of_gt h, ne_of_lt h]
  · simp [h]
  · simp [h, not_lt_of_gt h]

/-- **The comparator agrees with the order of the key space.** -/
theorem represents_inMemKeyComp : ComparatorMap.Represents InMemKeyComp DbKey.bytes := by
  intro a b
  rw [InMemKeyComp, decide_eq_true_iff, composedKeyComparison]
  cases a with
  | block i =>
    cases b with
    | block j =>
      simp only [DbKey.bytes, genBlockDbKey, extractTypeFromKey_genDbKey,
        extractBlockIdFromKey_genDbKey, ne_eq, not_true_eq_false, if_false, if_true]
      rw [compareIds_neg, DbKey.block_lt_block]
    | data key j =>
      simp only [DbKey.bytes, genBlockDbKey, genDataDbKey, extractTypeFromKey_genDbKey]
      rw [if_pos (by decide)]
      exact iff_of_true (by decide) (DbKey.block_lt_data i key j)
  | data key i =>
    cases b with
    | block j =>
      simp only [DbKey.bytes, genBlockDbKey, genDataDbKey, extractTypeFromKey_genDbKey]
      rw [if_pos (by decide)]
      exact iff_of_false (by decide) (DbKey.not_data_lt_block key i j)
    | data key' j =>
      obtain ⟨hlt, heq⟩ := sliceCompare_spec key key'
      simp only [DbKey.bytes, genDataDbKey, extractTypeFromKey_genDbKey,
        extractBlockIdFromKey_genDbKey, extractKey_genDbKey, ne_eq, not_true_eq_false, if_false]
      rw [if_neg (by decide), DbKey.data_lt_data]
      by_cases hkey : key = key'
      · rw [if_pos (heq.2 hkey), compareIds_neg]
        simp [hkey]
      · rw [if_neg (hkey ∘ heq.1), hlt]
        simp [hkey]

end ConcordBft.SimpleKVBC
