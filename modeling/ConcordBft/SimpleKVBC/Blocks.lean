import ConcordBft.Failure
import ConcordBft.Lib.LittleEndian
import ConcordBft.Types

set_option autoImplicit false

/-! # The bytes of a block (`tests/simpleKVBC/src/ReplicaImp.cpp`)

A block starts with the number of its elements and the digest of the previous block. A table with the
offsets and sizes of the keys and values follows, all of them 16-bit numbers, and then the keys and
values themselves. `blockBytes` are the bytes of a block with some updates, which are its elements
(`blockElements_blockBytes`) as long as its size is an `int16_t`. `createBlockFromUpdates` computes
with `int16_t` sizes: above that it makes a block of one byte, or writes outside of its buffer. -/

namespace ConcordBft.SimpleKVBC

open LittleEndian

/-- A key and its value. -/
abbrev KeyValuePair := Bytes × Bytes

/-- `sizeof(blockHeader) - sizeof(blockEntry)` -/
def sizeofBlockHeader : ℕ := 34

/-- `sizeof(blockEntry)` -/
def sizeofBlockEntry : ℕ := 8

/-! ## Making a block -/

variable (updates : List KeyValuePair)

/-- The size of the keys and values. -/
def blockBodySize : ℕ := (updates.map fun kv => kv.1.length + kv.2.length).sum

/-- The header and the table of a block. -/
def headerSize : ℕ := sizeofBlockHeader + sizeofBlockEntry * updates.length

/-- The size of a block. -/
def blockSize : ℕ := headerSize updates + blockBodySize updates

/-- `header->entries`, where the first key stands at `currentOffset`. -/
def blockEntries : ℕ → List KeyValuePair → Bytes
  | _, [] => []
  | currentOffset, (key, val) :: rest =>
    (encodeInt 2 currentOffset ++ (encodeInt 2 key.length ++
      (encodeInt 2 (currentOffset + key.length : ℕ) ++ encodeInt 2 val.length))) ++
    blockEntries (currentOffset + key.length + val.length) rest

/-- The keys and values. -/
def blockBody : Bytes := updates.flatMap fun kv => kv.1 ++ kv.2

/-- The block, without bounds on its sizes. -/
def blockBytes (digestOfPrev : Bytes) : Bytes :=
  encodeInt 2 updates.length ++ (digestOfPrev ++
    (blockEntries (headerSize updates) updates ++ blockBody updates))

/-- `createBlockFromUpdates`: the block and `outUpdatesInNewBlock`. -/
def createBlockFromUpdates (digestOfPrev : Bytes) : Except Failure (Bytes × List KeyValuePair) :=
  let blockBodySize := updates.foldl
    (fun size kv => asInt16 (size + asInt16 (kv.1.length + kv.2.length : ℕ))) 0
  let numOfElemens := updates.foldl (fun n _ => asInt16 (n + 1)) 0
  let headerSize := asInt16 (sizeofBlockHeader + sizeofBlockEntry * numOfElemens)
  let size := asInt16 (headerSize + blockBodySize)
  -- `new` throws `bad_alloc`
  if size < 0 then pure ([0], [])
  else if size = blockSize updates then pure (blockBytes updates digestOfPrev, updates)
  -- the buffer is smaller than what is copied to it
  else .error .notModelled

/-! ## Reading a block -/

def numberOfElements (block : Bytes) : Int := decodeInt (field block 0 2)

/-- The digest of the block before. -/
def prevBlockDigest (block : Bytes) : Bytes := field block 2 32

/-- The bytes from an offset on; `none` if some of them are outside of the block. -/
def blockSlice (block : Bytes) (offset size : Int) : Option Bytes :=
  if 0 ≤ offset ∧ 0 ≤ size ∧ offset + size ≤ block.length then
    some (field block offset.toNat size.toNat)
  else none

/-- The key and the value of the element `i`; `none` if something outside of the block is read. -/
def blockElement (block : Bytes) (i : ℕ) : Option KeyValuePair :=
  let loc := sizeofBlockHeader + sizeofBlockEntry * i
  if loc + sizeofBlockEntry ≤ block.length then
    (blockSlice block (decodeInt (field block loc 2)) (decodeInt (field block (loc + 2) 2))).bind
      fun key =>
        (blockSlice block (decodeInt (field block (loc + 4) 2))
          (decodeInt (field block (loc + 6) 2))).map fun val => (key, val)
  else none

/-- The loop over the elements, `left` of them from `i` on. -/
def blockElementsFrom (block : Bytes) : ℕ → ℕ → Option (List KeyValuePair)
  | _, 0 => some []
  | i, left + 1 =>
    (blockElement block i).bind fun kv => (blockElementsFrom block (i + 1) left).map (kv :: ·)

/-- The elements of a block; `none` if something outside of the block is read. -/
def blockElements (block : Bytes) : Option (List KeyValuePair) :=
  if block.length < 2 then none
  else blockElementsFrom block 0 (numberOfElements block).toNat

/-- The value that a list of updates gives to a key: the last one counts. -/
def valueIn (key : Bytes) : Option Bytes := (updates.reverse.find? fun kv => kv.1 = key).map (·.2)

theorem valueIn_cons (key' val : Bytes) (updates : List KeyValuePair) (key : Bytes) :
    valueIn ((key', val) :: updates) key =
      (valueIn updates key).or (if key' = key then some val else none) := by
  unfold valueIn
  rw [List.reverse_cons, List.find?_append]
  cases updates.reverse.find? fun kv => kv.1 = key with
  | some kv => rfl
  | none => by_cases h : key' = key <;> simp [h]

/-! ## Sizes as `int16_t` -/

/-- A sum of wrapped numbers that is wrapped in each step. -/
theorem foldl_asInt16 {α : Type} (size : α → ℕ) (l : List α) (n : Int) :
    l.foldl (fun s x => asInt16 (s + asInt16 (size x))) (asInt16 n) =
      asInt16 (n + (l.map size).sum) := by
  induction l generalizing n with
  | nil => simp
  | cons x rest ih =>
    have hstep : asInt16 (asInt16 n + asInt16 (size x)) = asInt16 (n + size x) := by
      simp [asInt16]
    rw [List.foldl_cons, hstep, ih, List.map_cons, List.sum_cons, Nat.cast_add, add_assoc]

/-- The size of the header and of the body, wrapped in between. -/
theorem asInt16_blockSize (n body : Int) :
    asInt16 (asInt16 (34 + 8 * asInt16 n) + asInt16 body) = asInt16 (34 + 8 * n + body) := by
  unfold asInt16 Int.bmod
  dsimp only
  split_ifs <;> omega

/-- What `createBlockFromUpdates` does depends on the size of the block as an `int16_t`. -/
theorem createBlockFromUpdates_eq (digestOfPrev : Bytes) :
    createBlockFromUpdates updates digestOfPrev =
      if asInt16 (blockSize updates) < 0 then pure ([0], [])
      else if blockSize updates < 2 ^ 15 then pure (blockBytes updates digestOfPrev, updates)
      else .error .notModelled := by
  have hbody : updates.foldl
      (fun size kv => asInt16 (size + asInt16 (kv.1.length + kv.2.length : ℕ))) 0 =
        asInt16 (blockBodySize updates) := by
    have hsum := foldl_asInt16 (fun kv : KeyValuePair => kv.1.length + kv.2.length) updates 0
    rwa [zero_add] at hsum
  have hnum : updates.foldl (fun n _ => asInt16 (n + 1)) 0 = asInt16 updates.length := by
    have hsum := foldl_asInt16 (fun _ : KeyValuePair => 1) updates 0
    rwa [zero_add, List.map_const', List.sum_replicate_nat, mul_one] at hsum
  have hsize := asInt16_blockSize updates.length (blockBodySize updates)
  have hexact : asInt16 (blockSize updates) = blockSize updates ↔
      0 ≤ asInt16 (blockSize updates) ∧ blockSize updates < 2 ^ 15 := by
    unfold asInt16 Int.bmod
    dsimp only
    split_ifs <;> omega
  unfold createBlockFromUpdates
  rw [hbody, hnum]
  simp only [sizeofBlockHeader, sizeofBlockEntry, Nat.cast_ofNat, hsize]
  rw [show (34 + 8 * (updates.length : Int) + blockBodySize updates) = blockSize updates by
    simp [blockSize, headerSize, sizeofBlockHeader, sizeofBlockEntry]]
  by_cases hneg : asInt16 (blockSize updates) < 0
  · rw [if_pos hneg, if_pos hneg]
  · rw [if_neg hneg, if_neg hneg]
    by_cases hfits : blockSize updates < 2 ^ 15
    · rw [if_pos hfits, if_pos (hexact.2 ⟨not_lt.1 hneg, hfits⟩)]
    · rw [if_neg hfits, if_neg fun heq => hfits (hexact.1 heq).2]

/-- Does `createBlockFromUpdates` stay inside of its buffer? -/
def InBuffer : Prop := asInt16 (blockSize updates) < 0 ∨ blockSize updates < 2 ^ 15

instance : Decidable (InBuffer updates) := inferInstanceAs (Decidable (_ ∨ _))

/-! ## Round trip -/

theorem length_blockEntries (currentOffset : ℕ) (updates : List KeyValuePair) :
    (blockEntries currentOffset updates).length = sizeofBlockEntry * updates.length := by
  induction updates generalizing currentOffset with
  | nil => rfl
  | cons kv rest ih =>
    simp only [blockEntries, List.length_append, length_encodeInt, ih, List.length_cons,
      sizeofBlockEntry]
    omega

theorem length_blockBody (updates : List KeyValuePair) :
    (blockBody updates).length = blockBodySize updates := by
  simp [blockBody, blockBodySize]

theorem length_blockBytes {digestOfPrev : Bytes} (hdigest : digestOfPrev.length = 32)
    (updates : List KeyValuePair) :
    (blockBytes updates digestOfPrev).length = blockSize updates := by
  simp only [blockBytes, List.length_append, length_encodeInt,
    length_blockEntries, length_blockBody, blockSize, headerSize, sizeofBlockHeader]
  omega

theorem blockEntries_append (currentOffset : ℕ) (us vs : List KeyValuePair) :
    blockEntries currentOffset (us ++ vs) =
      blockEntries currentOffset us ++ blockEntries (currentOffset + blockBodySize us) vs := by
  induction us generalizing currentOffset with
  | nil => simp [blockEntries, blockBodySize]
  | cons kv rest ih => simp [blockEntries, blockBodySize, ih, add_assoc]

section

variable {updates front back : List KeyValuePair} {key val digestOfPrev : Bytes}

/-- What the table says about the element behind `front`, and what is found there. -/
theorem entry_blockBytes (hdigest : digestOfPrev.length = 32)
    (hfits : blockSize updates < 2 ^ 15) (hupdates : updates = front ++ (key, val) :: back)
    {block : Bytes} {loc : ℕ} (hcreate : block = blockBytes updates digestOfPrev)
    (hloc : loc = sizeofBlockHeader + sizeofBlockEntry * front.length) :
    ∃ offset : ℕ, loc + 8 ≤ offset ∧ offset + (key.length + val.length) ≤ block.length ∧
      decodeInt (field block loc 2) = offset ∧ decodeInt (field block (loc + 2) 2) = key.length ∧
      decodeInt (field block (loc + 4) 2) = (offset + key.length : ℕ) ∧
      decodeInt (field block (loc + 6) 2) = val.length ∧
      block.drop offset = key ++ (val ++ blockBody back) := by
  have hlength := length_blockBytes hdigest updates
  rw [← hcreate] at hlength
  have hheader : headerSize updates = loc + 8 + sizeofBlockEntry * back.length := by
    simp [headerSize, hupdates, hloc, sizeofBlockEntry]
    omega
  have hsize : blockSize updates = headerSize updates + blockBodySize front +
      (key.length + val.length) + blockBodySize back := by
    simp [blockSize, blockBodySize, hupdates]
    omega
  have hdecode : ∀ n : ℕ, n < 2 ^ 15 → decodeInt (encodeInt 2 n) = n :=
    fun n hn => decodeInt_encodeInt (by omega) (by omega)
  have hentries := blockEntries_append (headerSize updates) front ((key, val) :: back)
  rw [← hupdates] at hentries
  generalize hoffset : headerSize updates + blockBodySize front = offset at hsize hentries
  obtain ⟨start, rest, hstart, hentry⟩ : ∃ start rest : Bytes, start.length = loc ∧
      block = start ++ (encodeInt 2 offset ++ (encodeInt 2 key.length ++
        (encodeInt 2 (offset + key.length : ℕ) ++ (encodeInt 2 val.length ++ rest)))) := by
    refine ⟨encodeInt 2 updates.length ++
      (digestOfPrev ++ blockEntries (headerSize updates) front),
      blockEntries (offset + key.length + val.length) back ++ blockBody updates, ?_, ?_⟩
    · simp [length_blockEntries, hdigest, hloc, sizeofBlockHeader]
      omega
    · simp [hcreate, blockBytes, hentries, blockEntries]
  have hbody : block = (encodeInt 2 updates.length ++ (digestOfPrev ++
      (blockEntries (headerSize updates) updates ++ blockBody front))) ++
        (key ++ (val ++ blockBody back)) := by
    simp [hcreate, blockBytes, blockBody, hupdates]
  refine ⟨offset, by omega, by omega, ?_, ?_, ?_, ?_, ?_⟩
  iterate 4
    · rw [hentry]
      simp only [field_skip, field_zero, hstart, length_encodeInt, Nat.le_add_right,
        Nat.add_sub_cancel_left, Nat.reduceLeDiff, Nat.reduceSub, le_refl, Nat.sub_self]
      exact hdecode _ (by omega)
  · rw [hbody]
    apply List.drop_left'
    simp [length_blockEntries, length_blockBody, hdigest, ← hoffset, headerSize, sizeofBlockHeader]
    omega

theorem blockSlice_of_drop {block mid rest : Bytes} {offset : ℕ}
    (hle : offset + mid.length ≤ block.length) (h : block.drop offset = mid ++ rest) :
    blockSlice block offset mid.length = some mid := by
  rw [blockSlice, if_pos (by omega)]
  simp [field, h]

theorem blockElement_blockBytes (hdigest : digestOfPrev.length = 32)
    (hfits : blockSize (front ++ (key, val) :: back) < 2 ^ 15) :
    blockElement (blockBytes (front ++ (key, val) :: back) digestOfPrev) front.length =
      some (key, val) := by
  obtain ⟨offset, hloc, hle, hkeyOffset, hkeySize, hvalOffset, hvalSize, hkey⟩ :=
    entry_blockBytes hdigest hfits rfl rfl rfl
  have hval : List.drop (offset + key.length) _ = _ :=
    (List.drop_drop ..).symm.trans ((congrArg _ hkey).trans List.drop_left)
  unfold blockElement
  dsimp only
  rw [if_pos (by show _ + 8 ≤ _; omega), hkeyOffset, hkeySize, hvalOffset, hvalSize,
    blockSlice_of_drop (by omega) hkey, blockSlice_of_drop (by omega) hval]
  rfl

theorem blockElementsFrom_blockBytes (hdigest : digestOfPrev.length = 32)
    (hfits : blockSize (front ++ back) < 2 ^ 15) :
    blockElementsFrom (blockBytes (front ++ back) digestOfPrev) front.length
      back.length = some back := by
  induction back generalizing front with
  | nil => rfl
  | cons kv rest ih =>
    have hrest := @ih (front ++ [kv]) (by simpa using hfits)
    rw [List.append_assoc, List.length_append] at hrest
    rw [List.length_cons, blockElementsFrom, blockElement_blockBytes hdigest hfits]
    exact congrArg (Option.map (kv :: ·)) hrest

end

theorem numberOfElements_blockBytes (updates : List KeyValuePair) (digestOfPrev : Bytes)
    (hfits : blockSize updates < 2 ^ 15) :
    numberOfElements (blockBytes updates digestOfPrev) = updates.length := by
  have hheader : sizeofBlockHeader + sizeofBlockEntry * updates.length ≤ blockSize updates :=
    Nat.le_add_right _ _
  rw [numberOfElements, blockBytes, field_zero _ _ (length_encodeInt 2 _)]
  unfold sizeofBlockEntry at hheader
  exact decodeInt_encodeInt (by omega) (by omega)

/-- **Round trip.** The elements of a block are the updates it was made from. -/
theorem blockElements_blockBytes {digestOfPrev : Bytes}
    (hdigest : digestOfPrev.length = 32) {updates : List KeyValuePair}
    (hfits : blockSize updates < 2 ^ 15) :
    blockElements (blockBytes updates digestOfPrev) = some updates := by
  have hlength := length_blockBytes hdigest updates
  have hheader : 34 ≤ blockSize updates := by
    unfold blockSize headerSize sizeofBlockHeader
    omega
  rw [blockElements, if_neg (by omega), numberOfElements_blockBytes _ _ hfits,
    Int.toNat_natCast]
  exact @blockElementsFrom_blockBytes [] updates digestOfPrev hdigest hfits

end ConcordBft.SimpleKVBC
