import ConcordBft.SimpleKVBC.Reads
import Mathlib.Data.List.TakeWhile

set_option autoImplicit false

/-! # The data of a block (`ReplicaImp::getBlockData`)

`fetchBlockData` makes each key and value from its address alone. Such a `Slice` ends before the next
zero byte, whatever size the table gives. The last value ends with the block, so either its slice
leaves the block or the value has a zero byte in it and is cut there. -/

namespace ConcordBft.SimpleKVBC

open Checked LittleEndian ReplicaImp

/-- `Slice(const char*)`; `none` if the next zero byte is not in the block. -/
def cString (block : Bytes) (offset : Int) : Option Bytes :=
  if 0 ≤ offset ∧ 0 ∈ block.drop offset.toNat then
    some ((block.drop offset.toNat).takeWhile (· ≠ 0))
  else none

/-- `retVal.insert(kv)`: in a set each key is unique. -/
def insertPair (retVal : List KeyValuePair) (kv : KeyValuePair) : List KeyValuePair :=
  if retVal.any (·.1 = kv.1) then retVal else retVal ++ [kv]

/-- The loop over the elements, `left` of them from `i` on. -/
def fetchBlockDataFrom (block : Bytes) : ℕ → ℕ → List KeyValuePair → Option (List KeyValuePair)
  | _, 0, retVal => some retVal
  | i, left + 1, retVal =>
    let loc := sizeofBlockHeader + sizeofBlockEntry * i
    if loc + sizeofBlockEntry ≤ block.length then
      (cString block (decodeInt (field block loc 2))).bind fun key =>
        (cString block (decodeInt (field block (loc + 4) 2))).bind fun val =>
          fetchBlockDataFrom block (i + 1) left (insertPair retVal (key, val))
    else none

/-- The pairs of a block; `none` if something outside of the block is read. -/
def fetchBlockData (block : Bytes) : Option (List KeyValuePair) :=
  if block.length < 2 then none
  else fetchBlockDataFrom block 0 (numberOfElements block).toNat []

namespace ReplicaImp

/-- `outBlockData`, or `none` with the status `NotFound`. -/
def getBlockData (r : ReplicaImp) (blockId : BlockId) :
    Except Failure (Option (List KeyValuePair)) := do
  Assert (blockId ≤ r.lastBlock)
  let block := (r.bcDbAdapter.getBlockById blockId).1
  if block.length = 0 then pure none
  else
    match fetchBlockData block with
    | none => .error .notModelled
    | some data => pure (some data)

/-- A replica reads each value of a block at the version of the block. -/
def Reads (r : ReplicaImp) (blockId : BlockId) (updates : List KeyValuePair) : Prop :=
  ∀ kv ∈ updates, r.get blockId kv.1 = (kv.2, blockId)

/-- The data of a block are the updates. -/
def HasData (r : ReplicaImp) (blockId : BlockId) (updates : List KeyValuePair) : Prop :=
  ∃ data, r.getBlockData blockId = .ok (some data) ∧ ∀ kv, kv ∈ data ↔ kv ∈ updates

/-- `addBlock` is refused without effect, or both this replica and another one, to which the bytes of
    the block are passed, have its contents. -/
def KeepsContents (cfg : KVBCConfig) (r other : ReplicaImp) (updates : List KeyValuePair) : Prop :=
  r.addBlockInternal cfg updates = .ok (r, none) ∨
    ∃ blockId r' other', r.addBlockInternal cfg updates = .ok (r', some blockId) ∧
      other.insertBlockInternal blockId (r'.getBlock blockId).2 = .ok other' ∧
      (r'.HasData blockId updates ∧ r'.Reads blockId updates) ∧
      other'.HasData blockId updates ∧ other'.Reads blockId updates

end ReplicaImp

/-! ## What is fetched -/

theorem valueIn_of_mem {updates : List KeyValuePair} (hkeys : (updates.map Prod.fst).Nodup)
    {key val : Bytes} (h : (key, val) ∈ updates) : valueIn updates key = some val := by
  induction updates with
  | nil => simp at h
  | cons kv rest ih =>
    obtain ⟨key', val'⟩ := kv
    obtain ⟨hnew, hrest⟩ := List.nodup_cons.1 hkeys
    rw [valueIn_cons]
    rcases List.mem_cons.1 h with heq | hmem
    · obtain ⟨rfl, rfl⟩ := Prod.mk.inj heq
      have hnone : valueIn rest key = none := by
        simp only [valueIn, Option.map_eq_none_iff, List.find?_eq_none, List.mem_reverse]
        intro kv hkv heq'
        exact hnew (List.mem_map.2 ⟨kv, hkv, of_decide_eq_true heq'⟩)
      rw [hnone, if_pos rfl, Option.none_or]
    · rw [ih hrest hmem, Option.some_or]

variable {block : Bytes} {data : List KeyValuePair}

/-- No value has a zero byte, and every value that was read ends before one in the block. -/
theorem fetchBlockDataFrom_some {i left : ℕ} {retVal : List KeyValuePair}
    (h : fetchBlockDataFrom block i left retVal = some data) (hretVal : ∀ kv ∈ retVal, 0 ∉ kv.2) :
    (∀ kv ∈ data, 0 ∉ kv.2) ∧ ∀ j, i ≤ j → j < i + left →
      (cString block (decodeInt (field block (sizeofBlockHeader + sizeofBlockEntry * j + 4) 2))).isSome
      := by
  induction left generalizing i retVal with
  | zero =>
    obtain rfl := Option.some.inj h
    exact ⟨hretVal, fun j hij hj => by omega⟩
  | succ left ih =>
    simp only [fetchBlockDataFrom, Option.ite_none_right_eq_some, Option.bind_eq_some_iff] at h
    obtain ⟨-, key, -, val, hval, h⟩ := h
    have hzero : 0 ∉ val := by
      unfold cString at hval
      split_ifs at hval
      obtain rfl := Option.some.inj hval
      intro hmem
      have hne := List.mem_takeWhile_imp hmem
      simp at hne
    obtain ⟨hdata, hread⟩ := ih h (by
      intro kv hkv
      unfold insertPair at hkv
      split_ifs at hkv
      · exact hretVal kv hkv
      · rcases List.mem_append.1 hkv with hold | hnew
        · exact hretVal kv hold
        · obtain rfl := List.mem_singleton.1 hnew
          exact hzero)
    refine ⟨hdata, fun j hij hj => ?_⟩
    by_cases heq : j = i
    · rw [heq, hval]
      rfl
    · exact hread j (by omega) (by omega)

/-- The updates of a block that is not empty are never fetched. -/
theorem eq_nil_of_fetchBlockData {digestOfPrev : Bytes} (hdigest : digestOfPrev.length = 32)
    {updates : List KeyValuePair} (hfits : blockSize updates < 2 ^ 15)
    (h : fetchBlockData (blockBytes updates digestOfPrev) = some data)
    (hdata : ∀ kv, kv ∈ data ↔ kv ∈ updates) : updates = [] := by
  by_contra hne
  obtain ⟨front, ⟨key, val⟩, hupdates⟩ : ∃ front last, updates = front ++ [last] :=
    ⟨_, _, (List.dropLast_append_getLast hne).symm⟩
  obtain ⟨offset, -, -, -, -, hvalOffset, -, hkey⟩ :=
    entry_blockBytes hdigest hfits hupdates rfl rfl
  unfold fetchBlockData at h
  split_ifs at h
  obtain ⟨hzero, hread⟩ := fetchBlockDataFrom_some h (by simp)
  rw [numberOfElements_blockBytes _ _ hfits, Int.toNat_natCast] at hread
  have hlast := hread front.length (Nat.zero_le _) (by simp [hupdates])
  refine hzero (key, val) ((hdata _).2 (by simp [hupdates])) ?_
  -- what is left of the block from the last value on is this value
  rw [hvalOffset] at hlast
  unfold cString at hlast
  split_ifs at hlast with hmem
  · have hval := hmem.2
    rw [Int.toNat_natCast, ← List.drop_drop, hkey, List.drop_left] at hval
    simpa [blockBody] using hval
  · simp at hlast

/-! ## Adding a block -/

namespace Run

variable {cfg cfg' : KVBCConfig} {run other : Run} {updates : List KeyValuePair}

theorem Refines.reads {r : ReplicaImp} {chain : BlockId → Option StoredBlock} {blockId : BlockId}
    {bytes : Bytes} (h : Refines r.bcDbAdapter chain)
    (hblock : chain blockId = some ⟨bytes, updates⟩) (hkeys : (updates.map Prod.fst).Nodup) :
    r.Reads blockId updates := by
  rintro ⟨key, val⟩ hkv
  have hvalue : valueAt chain blockId key = some val := by
    rw [valueAt, hblock]
    exact valueIn_of_mem hkeys hkv
  have hread := h.readOf blockId key
  unfold ReplicaImp.get
  generalize r.bcDbAdapter.getKeyByReadVersion blockId key = p at hread
  cases hread with
  | newest hle hx hnewest =>
    obtain rfl := le_antisymm hle (hnewest blockId le_rfl (by simp [hvalue]))
    rw [Option.some.inj (hx.symm.trans hvalue)]
  | nothing hnone => simp [hnone blockId le_rfl] at hvalue

theorem Refines.hasData_iff {r : ReplicaImp} {chain : BlockId → Option StoredBlock} {blockId : BlockId}
    {digest : Bytes} (hdigest : digest.length = 32) (hfits : blockSize updates < 2 ^ 15)
    (h : Refines r.bcDbAdapter chain)
    (hblock : chain blockId = some ⟨blockBytes updates digest, updates⟩)
    (hle : blockId ≤ r.lastBlock) : r.HasData blockId updates ↔ updates = [] := by
  have hlength := length_blockBytes hdigest updates
  unfold blockSize headerSize sizeofBlockHeader at hlength
  unfold HasData getBlockData
  rw [assert_bind_of hle, h.getBlockById, hblock]
  simp only [Option.map_some, Option.getD_some]
  rw [if_neg (by omega)]
  constructor
  · rintro ⟨data, hfetch, hdata⟩
    split at hfetch
    · simp at hfetch
    · next fetched heq =>
      cases hfetch
      exact eq_nil_of_fetchBlockData hdigest hfits heq hdata
  · rintro rfl
    have hfetch : fetchBlockData (blockBytes [] digest) = some [] := by
      rw [fetchBlockData, if_neg (by omega), numberOfElements_blockBytes _ _ hfits]
      rfl
    exact ⟨[], by rw [hfetch]; rfl, fun _ => Iff.rfl⟩

/-- The one byte of a block that was too big has no data: its header is read behind it. -/
theorem Refines.not_hasData {r : ReplicaImp} {chain : BlockId → Option StoredBlock} {blockId : BlockId}
    (h : Refines r.bcDbAdapter chain) (hblock : chain blockId = some ⟨[0], []⟩) :
    ¬ r.HasData blockId updates := by
  rintro ⟨data, hdata, -⟩
  unfold getBlockData at hdata
  rw [h.getBlockById, hblock] at hdata
  obtain ⟨-, -, hdata⟩ := bind_eq_ok hdata
  simp [fetchBlockData] at hdata

theorem Inv.addBlockInternal (h : Inv run) {blockRaw : Bytes} {stored : List KeyValuePair}
    (hnew : run.replica.newBlock cfg updates = .ok (blockRaw, stored)) (hne : blockRaw.length ≠ 0)
    (hle : blockRaw.length ≤ cfg.maxBlockSize)
    (hfree : run.chain (run.replica.lastBlock + 1) = none) :
    ∃ r', run.replica.addBlockInternal cfg updates = .ok (r', some (run.replica.lastBlock + 1)) ∧
      r'.lastBlock = run.replica.lastBlock + 1 ∧
      Refines r'.bcDbAdapter (store run.chain (run.replica.lastBlock + 1) ⟨blockRaw, stored⟩) := by
  unfold ReplicaImp.addBlockInternal
  rw [hnew, ok_bind]
  dsimp only
  rw [if_neg hne, if_neg (not_lt.2 hle)]
  exact ⟨_, rfl, rfl, h.refines.store hfree (Or.inl rfl)⟩

theorem addBlockInternal_refused {r : ReplicaImp} {blockRaw : Bytes} {stored : List KeyValuePair}
    (hnew : r.newBlock cfg updates = .ok (blockRaw, stored))
    (hbig : cfg.maxBlockSize < blockRaw.length) :
    r.addBlockInternal cfg updates = .ok (r, none) := by
  unfold ReplicaImp.addBlockInternal
  rw [hnew, ok_bind]
  dsimp only
  rw [if_neg (by omega), if_pos hbig]
  rfl

/-- A block is passed to a replica that does not have it, or has it already. -/
theorem Inv.insert_same (h : Inv run) {blockId : BlockId} {block : Bytes}
    (hupdates : blockElements block = some updates)
    (hsame : run.chain blockId = none ∨ run.chain blockId = some ⟨block, updates⟩) :
    ∃ r' chain', run.replica.insertBlockInternal blockId block = .ok r' ∧
      Refines r'.bcDbAdapter chain' ∧ chain' blockId = some ⟨block, updates⟩ ∧
      blockId ≤ r'.lastBlock := by
  have hle : blockId ≤ if run.replica.lastBlock < blockId then blockId else run.replica.lastBlock := by
    split_ifs with hlt
    · exact le_rfl
    · exact not_lt.1 hlt
  rcases hsame with hnone | hsome
  · obtain ⟨r', hput, hrefines, hlast⟩ := h.insertBlockInternal hnone hupdates
    exact ⟨r', _, hput, hrefines, store_self .., hlast ▸ hle⟩
  · have hlength := length_of_blockElements hupdates
    refine ⟨⟨if run.replica.lastBlock < blockId then blockId else run.replica.lastBlock,
      run.replica.bcDbAdapter⟩, run.chain, ?_, h.refines, hsome, hle⟩
    unfold ReplicaImp.insertBlockInternal
    rw [h.refines.getBlockById, hsome]
    dsimp only [Option.map_some, Option.getD_some, Option.isSome_some]
    rw [if_pos ⟨rfl, by omega⟩]
    rfl

/-- The block that `addBlock` makes of the updates is too big: as it is, or as one byte. -/
def TooBig (cfg : KVBCConfig) (updates : List KeyValuePair) : Prop :=
  (blockSize updates < 2 ^ 15 ∧ cfg.maxBlockSize < blockSize updates) ∨
    (asInt16 (blockSize updates) < 0 ∧ cfg.maxBlockSize = 0)

/-- A block that is added and whose data are wrong has not kept its contents. -/
theorem not_keepsContents {r r' other : ReplicaImp} {blockId : BlockId}
    (hadd : r.addBlockInternal cfg updates = .ok (r', some blockId))
    (hdata : ¬ r'.HasData blockId updates) : ¬ r.KeepsContents cfg other updates := by
  rintro (hrefused | ⟨blockId', r'', -, hadd', -, ⟨hhas, -⟩, -⟩)
  · simp [hadd] at hrefused
  · obtain ⟨rfl, hid⟩ := Prod.mk.inj (Except.ok.inj (hadd.symm.trans hadd'))
    obtain rfl := Option.some.inj hid
    exact hdata hhas

/-- Updates that fit into a block. -/
theorem keepsContents_of_fits (h : Inv run) (hother : Inv other)
    (hkeys : (updates.map Prod.fst).Nodup) (hfits : blockSize updates < 2 ^ 15)
    (hfree : run.chain (run.replica.lastBlock + 1) = none)
    (hsame : ∀ b, other.chain (run.replica.lastBlock + 1) = some b →
      ∃ stored, run.replica.newBlock cfg updates = .ok (b.bytes, stored))
    (hle : blockSize updates ≤ cfg.maxBlockSize) :
    (∃ r' other', run.replica.addBlockInternal cfg updates =
        .ok (r', some (run.replica.lastBlock + 1)) ∧
      other.replica.insertBlockInternal (run.replica.lastBlock + 1)
        (r'.getBlock (run.replica.lastBlock + 1)).2 = .ok other' ∧
      r'.Reads (run.replica.lastBlock + 1) updates ∧
      other'.Reads (run.replica.lastBlock + 1) updates) ∧
    (run.replica.KeepsContents cfg other.replica updates ↔ updates = []) := by
  obtain ⟨digest, hlength, hnew⟩ := h.newBlock_of_fits cfg hfits
  have hsize := length_blockBytes hlength updates
  have hpos : 34 ≤ blockSize updates := by
    unfold blockSize headerSize sizeofBlockHeader
    omega
  obtain ⟨r', hadd, hlast, hrefines⟩ := h.addBlockInternal hnew (by omega) (by omega) hfree
  have hblock := store_self run.chain (run.replica.lastBlock + 1) ⟨blockBytes updates digest, updates⟩
  have hbytes : (r'.getBlock (run.replica.lastBlock + 1)).2 = blockBytes updates digest := by
    rw [getBlock, hrefines.getBlockById, store_self]
    rfl
  have helements := blockElements_blockBytes hlength hfits
  -- a block of the same id at the other replica has the same bytes, and so the same updates
  have hsame' : other.chain (run.replica.lastBlock + 1) = none ∨
      other.chain (run.replica.lastBlock + 1) = some ⟨blockBytes updates digest, updates⟩ := by
    cases hb : other.chain (run.replica.lastBlock + 1) with
    | none => exact Or.inl rfl
    | some b =>
      obtain ⟨bytes, stored'⟩ := b
      obtain ⟨stored, hstored⟩ := hsame _ hb
      obtain ⟨rfl, -⟩ := Prod.mk.inj (Except.ok.inj (hnew.symm.trans hstored))
      rcases hother.elements _ _ hb with helements' | hone
      · obtain rfl := Option.some.inj (helements.symm.trans helements')
        exact Or.inr rfl
      · have hlen := congrArg (fun b => b.bytes.length) hone
        simp only [List.length_singleton] at hlen
        omega
  obtain ⟨other', chain', hput, hrefines', hblock', hle'⟩ := hother.insert_same helements hsame'
  rw [← hbytes] at hput
  have hdata := hrefines.hasData_iff hlength hfits hblock hlast.ge
  have hdata' := hrefines'.hasData_iff hlength hfits hblock' hle'
  have hreads := hrefines.reads hblock hkeys
  have hreads' := hrefines'.reads hblock' hkeys
  refine ⟨⟨r', other', hadd, hput, hreads, hreads'⟩, ?_⟩
  constructor
  · intro hkeeps
    by_contra hnot
    exact not_keepsContents hadd (mt hdata.1 hnot) hkeeps
  · intro hnil
    exact Or.inr ⟨_, r', other', hadd, hput, ⟨hdata.2 hnil, hreads⟩, hdata'.2 hnil, hreads'⟩

/-- **Blocks keep their contents only where there is nothing to keep.** Of updates that fit into a
    block every value is read at the version of the block, also at a replica to which the block is
    passed, whether it has the block already or not. The data of the block are right for no updates
    only; so what is left are blocks that are refused. Updates of every size are covered. -/
theorem keepsContents_iff (h : Reaches cfg {} run) (hother : Reaches cfg' {} other)
    (hkeys : (updates.map Prod.fst).Nodup) (hfree : run.chain (run.replica.lastBlock + 1) = none)
    (hsame : ∀ b, other.chain (run.replica.lastBlock + 1) = some b →
      ∃ stored, run.replica.newBlock cfg updates = .ok (b.bytes, stored)) :
    (blockSize updates < 2 ^ 15 → blockSize updates ≤ cfg.maxBlockSize → ∃ r' other',
      run.replica.addBlockInternal cfg updates = .ok (r', some (run.replica.lastBlock + 1)) ∧
      other.replica.insertBlockInternal (run.replica.lastBlock + 1)
        (r'.getBlock (run.replica.lastBlock + 1)).2 = .ok other' ∧
      r'.Reads (run.replica.lastBlock + 1) updates ∧
      other'.Reads (run.replica.lastBlock + 1) updates) ∧
    (run.replica.KeepsContents cfg other.replica updates ↔ updates = [] ∨ TooBig cfg updates) := by
  have hinv := h.inv
  have hnil : updates = [] → blockSize updates < 2 ^ 15 := by
    rintro rfl
    decide
  refine ⟨fun hfits hle =>
    (keepsContents_of_fits hinv hother.inv hkeys hfits hfree hsame hle).1, ?_⟩
  by_cases hfits : blockSize updates < 2 ^ 15
  · have hpos : ¬ asInt16 (blockSize updates) < 0 := by
      rw [asInt16_of_fits (by omega) (by omega)]
      omega
    by_cases hbig : cfg.maxBlockSize < blockSize updates
    · obtain ⟨digest, hlength, hnew⟩ := hinv.newBlock_of_fits cfg hfits
      have hrefused := addBlockInternal_refused hnew (by rwa [length_blockBytes hlength])
      exact iff_of_true (Or.inl hrefused) (Or.inr (Or.inl ⟨hfits, hbig⟩))
    · rw [(keepsContents_of_fits hinv hother.inv hkeys hfits hfree hsame (not_lt.1 hbig)).2]
      simp [TooBig, hbig, hpos]
  · have hnot : updates ≠ [] := fun heq => hfits (hnil heq)
    by_cases hneg : asInt16 (blockSize updates) < 0
    · have hnew := hinv.newBlock_of_neg cfg hneg
      by_cases hzero : cfg.maxBlockSize = 0
      · have hrefused := addBlockInternal_refused hnew (by simp [hzero])
        exact iff_of_true (Or.inl hrefused) (Or.inr (Or.inr ⟨hneg, hzero⟩))
      · obtain ⟨r', hadd, -, hrefines⟩ := hinv.addBlockInternal hnew (by simp)
          (by rw [List.length_singleton]; omega) hfree
        refine iff_of_false (not_keepsContents hadd (hrefines.not_hasData (store_self ..))) ?_
        rintro (heq | ⟨hlt, -⟩ | ⟨-, heq⟩)
        · exact hnot heq
        · exact hfits hlt
        · exact hzero heq
    · -- the copy leaves the buffer
      obtain ⟨digest, hdigest, -⟩ := hinv.digestOfPrev cfg
      have hadd : run.replica.addBlockInternal cfg updates = .error .notModelled := by
        rw [addBlockInternal, newBlock, hdigest, ok_bind, createBlockFromUpdates_eq, if_neg hneg,
          if_neg hfits]
        rfl
      refine iff_of_false ?_ ?_
      · rintro (hrefused | ⟨_, _, _, hadd', -⟩)
        · simp [hadd] at hrefused
        · simp [hadd] at hadd'
      · rintro (heq | ⟨hlt, -⟩ | ⟨hlt, -⟩)
        · exact hnot heq
        · exact hfits hlt
        · exact hneg hlt

/-- A configuration whose blocks have at most 44 bytes. -/
def smallBlocks : KVBCConfig := { zeroDigests with maxBlockSize := 44 }

/-- After a transfer, the key `[1]` gets the value `[2, 0]` in block 5: every value is read at both
    replicas, one of which has block 3 only, but the data of the block are not right. With one byte less
    for a block, the update is refused. -/
theorem keepsContents_after_callsOfTransfer : ∃ run other small : Run,
    Reaches zeroDigests {} run ∧ Reaches zeroDigests {} other ∧ Reaches smallBlocks {} small ∧
    (∃ r' other', run.replica.addBlockInternal zeroDigests [([1], [2, 0])] = .ok (r', some 5) ∧
      other.replica.insertBlockInternal 5 (r'.getBlock 5).2 = .ok other' ∧
      r'.Reads 5 [([1], [2, 0])] ∧ other'.Reads 5 [([1], [2, 0])]) ∧
    ¬ run.replica.KeepsContents zeroDigests other.replica [([1], [2, 0])] ∧
    small.replica.lastBlock = 4 ∧
    small.replica.KeepsContents smallBlocks other.replica [([1], [2, 0])] := by
  obtain ⟨run, hrun, hid, hfree⟩ : ∃ run, Reaches zeroDigests {} run ∧ run.replica.lastBlock = 4 ∧
      run.chain 5 = none :=
    Machine.exists_reaches callsOfTransfer (by decide +kernel)
  obtain ⟨small, hsmall, hid', hfree'⟩ : ∃ run, Reaches smallBlocks {} run ∧
      run.replica.lastBlock = 4 ∧ run.chain 5 = none :=
    Machine.exists_reaches
      [.putBlock 3 (blockBytes [([1], [30])] (List.replicate 32 0)), .addBlock [([], [7])]]
      (by decide +kernel)
  obtain ⟨other, hother, hnone⟩ : ∃ run, Reaches zeroDigests {} run ∧ run.chain 5 = none :=
    Machine.exists_reaches [.putBlock 3 (blockBytes [([1], [30])] (List.replicate 32 0))]
      (by decide +kernel)
  have hnext : (4 : BlockId) + 1 = 5 := rfl
  have hlarge := @keepsContents_iff zeroDigests zeroDigests run other [([1], [2, 0])] hrun hother
    (by decide) (by rw [hid, hnext, hfree]) (by rw [hid, hnext, hnone]; simp)
  have hlittle := @keepsContents_iff smallBlocks zeroDigests small other [([1], [2, 0])] hsmall hother
    (by decide) (by rw [hid', hnext, hfree']) (by rw [hid', hnext, hnone]; simp)
  obtain ⟨r', other', hadd, hput, hreads⟩ := hlarge.1 (by decide) (by decide)
  rw [hid, hnext] at hadd hput hreads
  refine ⟨run, other, small, hrun, hother, hsmall, ⟨r', other', hadd, hput, hreads⟩, ?_, hid', ?_⟩
  · rw [hlarge.2]
    rintro (hnil | ⟨-, hlt⟩ | ⟨-, hzero⟩)
    · simp at hnil
    · exact absurd hlt (by decide)
    · exact absurd hzero (by decide)
  · exact hlittle.2.2 (Or.inr (Or.inl ⟨by decide, by decide⟩))

/-- The key `[1]` with the value `[2, 0]` comes back as the key `[1, 2]` with the value `[2]`. -/
theorem not_keepsContents_of_zero : ¬ ReplicaImp.KeepsContents zeroDigests {} {} [([1], [2, 0])] := by
  have hread : (do
      let p ← addBlockInternal zeroDigests {} [([1], [2, 0])]
      p.1.getBlockData (p.2.getD 0)) = .ok (some [([1, 2], [2])]) := by decide +kernel
  rintro (hrefused | ⟨blockId, r', -, hadd, -, ⟨⟨data, hdata, hsame⟩, -⟩, -⟩)
  · rw [hrefused] at hread
    revert hread
    decide +kernel
  · rw [hadd, ok_bind] at hread
    obtain rfl := Option.some.inj (Except.ok.inj (hdata.symm.trans hread))
    simpa using (hsame ([1], [2, 0])).2

end Run

end ConcordBft.SimpleKVBC
