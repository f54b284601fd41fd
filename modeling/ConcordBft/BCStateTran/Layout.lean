import ConcordBft.BCStateTran.VirtualBlock

set_option autoImplicit false

/-! # The bytes of a virtual block

The header and the elements that are written are the ones that are read, and every element of a block
with the right structure has a whole page. -/

namespace ConcordBft.BCStateTran

open LittleEndian List

/-! ## Elements -/

/-- The values fit in the fields of an element, and the page is a whole one. -/
structure ElementOfVirtualBlock.Fits (e : ElementOfVirtualBlock) : Prop where
  pageId_lt : e.pageId < 256 ^ 4
  checkpointNumber_lt : e.checkpointNumber < 256 ^ 8
  page_length : e.page.length = kSizeOfReservedPage

theorem length_headerBytes (n k : ℕ) : (headerBytes n k).length = sizeOfHeaderOfVirtualBlock := by
  simp [headerBytes, sizeOfHeaderOfVirtualBlock]

variable {e : ElementOfVirtualBlock}

theorem ElementOfVirtualBlock.Fits.length_bytes (h : e.Fits) : e.bytes.length = elementSize := by
  simp only [ElementOfVirtualBlock.bytes, length_append, length_encode, h.page_length, elementSize]
  omega

/-- The element at the front of some bytes. -/
def firstElement (bytes : Bytes) : ElementOfVirtualBlock :=
  ⟨readField bytes 0 4, readField bytes 4 8, BitVec.ofNat 256 (readField bytes 12 32),
    (bytes.drop 44).take kSizeOfReservedPage⟩

theorem elementAt_eq (vblock : Bytes) (i : ℕ) :
    elementAt vblock i =
      firstElement (vblock.drop (sizeOfHeaderOfVirtualBlock + i * elementSize)) := by
  simp [elementAt, firstElement, readField]

/-- **An element that was written is read.** -/
theorem firstElement_bytes (h : e.Fits) (rest : Bytes) : firstElement (e.bytes ++ rest) = e := by
  have hdigest : e.pageDigest.toNat < 256 ^ 32 := e.pageDigest.isLt
  change (⟨decode (field _ 0 4), decode (field _ 4 8), BitVec.ofNat 256 (decode (field _ 12 32)),
    field _ 44 kSizeOfReservedPage⟩ : ElementOfVirtualBlock) = e
  simp [ElementOfVirtualBlock.bytes, decode_encode_of_lt h.pageId_lt,
    decode_encode_of_lt h.checkpointNumber_lt, decode_encode_of_lt hdigest, h.page_length]

variable {es : List ElementOfVirtualBlock}

/-- The elements after the first `i`. -/
theorem drop_flatMap_bytes (h : ∀ e ∈ es, e.Fits) (i : ℕ) :
    (es.flatMap (·.bytes)).drop (i * elementSize) = (es.drop i).flatMap (·.bytes) := by
  induction i generalizing es with
  | zero => simp
  | succ i ih =>
    cases es with
    | nil => simp
    | cons e rest =>
      have hlength := (h e mem_cons_self).length_bytes
      have hsize : (i + 1) * elementSize = e.bytes.length + i * elementSize := by
        rw [hlength, Nat.add_mul, one_mul, add_comm]
      rw [flatMap_cons, hsize, ← drop_drop, drop_left]
      exact ih fun e' he' => h e' (mem_cons_of_mem e he')

theorem length_flatMap_bytes (h : ∀ e ∈ es, e.Fits) :
    (es.flatMap (·.bytes)).length = es.length * elementSize := by
  induction es with
  | nil => simp
  | cons e rest ih =>
    have hrest := ih fun e' he' => h e' (mem_cons_of_mem e he')
    rw [flatMap_cons, length_append, hrest, (h e mem_cons_self).length_bytes,
      length_cons, Nat.add_mul, one_mul, add_comm]

/-! ## Blocks -/

/-- The virtual block with some elements for a requester whose last checkpoint is `k`. -/
def vblockOf (k : ℕ) (es : List ElementOfVirtualBlock) : Bytes :=
  headerBytes es.length k ++ es.flatMap (·.bytes)

theorem getNumberOfElements_vblockOf (k : ℕ) (hlength : es.length < 256 ^ 4) :
    getNumberOfElements (vblockOf k es) = es.length := by
  change decode (field _ 0 4) = _
  simp [vblockOf, headerBytes, decode_encode_of_lt hlength]

theorem lastCheckpointKnownToRequester_vblockOf {k : ℕ} (hk : k < 256 ^ 8) :
    lastCheckpointKnownToRequester (vblockOf k es) = k := by
  change decode (field _ 4 8) = _
  simp [vblockOf, headerBytes, decode_encode_of_lt hk]

/-- **The elements that were written are read.** -/
theorem elementsOf_vblockOf (h : ∀ e ∈ es, e.Fits) (k : ℕ) (hlength : es.length < 256 ^ 4) :
    elementsOf (vblockOf k es) = es := by
  rw [elementsOf, getNumberOfElements_vblockOf k hlength]
  refine ext_getElem (by simp) fun i hi hi' => ?_
  have hdrop : (vblockOf k es).drop (sizeOfHeaderOfVirtualBlock + i * elementSize) =
      es[i].bytes ++ (es.drop (i + 1)).flatMap (·.bytes) := by
    rw [vblockOf, ← drop_drop, drop_left' (length_headerBytes es.length k),
      drop_flatMap_bytes h, drop_eq_getElem_cons hi', flatMap_cons]
  rw [getElem_map, getElem_range, elementAt_eq, hdrop]
  exact firstElement_bytes (h _ (getElem_mem hi')) _

/-! ## Blocks of the right structure -/

theorem checkElements_cons {k : ℕ} {last : Option ℕ} :
    checkElements k last (e :: es) = true ↔
      k < e.checkpointNumber ∧ e.pageDigest.isZero = false ∧ (∀ i ∈ last, i < e.pageId) ∧
        checkElements k (some e.pageId) es = true := by
  cases last <;> simp [checkElements, and_assoc]

/-- The elements are ordered by their pages, newer than the requester's checkpoint and have
    digests. -/
theorem checkElements_iff {k : ℕ} {last : Option ℕ} :
    checkElements k last es = true ↔
      es.Pairwise (fun a b => a.pageId < b.pageId) ∧ (∀ e ∈ es, ∀ i ∈ last, i < e.pageId) ∧
        ∀ e ∈ es, k < e.checkpointNumber ∧ e.pageDigest.isZero = false := by
  induction es generalizing last with
  | nil => simp [checkElements]
  | cons e rest ih =>
    rw [checkElements_cons, ih]
    simp only [pairwise_cons, forall_mem_cons, Option.mem_def, Option.some.injEq, forall_eq']
    constructor
    · rintro ⟨hnew, hdigest, hlast, hrest, hfirst, hall⟩
      exact ⟨⟨hfirst, hrest⟩,
        ⟨hlast, fun b hb i hi => (hlast i hi).trans (hfirst b hb)⟩, ⟨hnew, hdigest⟩, hall⟩
    · rintro ⟨⟨hfirst, hrest⟩, ⟨hlast, -⟩, ⟨hnew, hdigest⟩, hall⟩
      exact ⟨hnew, hdigest, hlast, hrest, hfirst, hall⟩

/-- What the structure of a virtual block is. -/
structure WellStructured (vblock : Bytes) : Prop where
  length_eq : vblock.length =
    sizeOfHeaderOfVirtualBlock + getNumberOfElements vblock * elementSize
  ordered : (elementsOf vblock).Pairwise fun a b => a.pageId < b.pageId
  newer : ∀ e ∈ elementsOf vblock, lastCheckpointKnownToRequester vblock < e.checkpointNumber
  digest : ∀ e ∈ elementsOf vblock, e.pageDigest.isZero = false

/-- A block of the right structure holds whole pages. -/
theorem WellStructured.page_length {vblock : Bytes} (h : WellStructured vblock)
    (he : e ∈ elementsOf vblock) : e.page.length = kSizeOfReservedPage := by
  obtain ⟨i, hi, rfl⟩ := mem_map.1 he
  have hlength := h.length_eq
  have hle : (i + 1) * elementSize ≤ getNumberOfElements vblock * elementSize :=
    Nat.mul_le_mul_right _ (mem_range.1 hi)
  simp only [elementAt, length_take, length_drop]
  unfold elementSize kSizeOfReservedPage at *
  omega

theorem checkStructureOfVirtualBlock_iff {vblock : Bytes} :
    checkStructureOfVirtualBlock vblock = true ↔ WellStructured vblock := by
  have hsize : 0 < elementSize := by decide
  simp only [checkStructureOfVirtualBlock, Bool.and_eq_true, decide_eq_true_eq, checkElements_iff]
  constructor
  · rintro ⟨⟨⟨hheader, hmod⟩, hdiv⟩, hordered, -, hall⟩
    refine ⟨?_, hordered, fun e he => (hall e he).1, fun e he => (hall e he).2⟩
    have := Nat.div_add_mod (vblock.length - sizeOfHeaderOfVirtualBlock) elementSize
    rw [hdiv, mul_comm] at this
    omega
  · rintro ⟨hlength, hordered, hnewer, hdigest⟩
    have hrest : vblock.length - sizeOfHeaderOfVirtualBlock =
        getNumberOfElements vblock * elementSize := by omega
    refine ⟨⟨⟨by omega, ?_⟩, ?_⟩, hordered, by simp, fun e he => ⟨hnewer e he, hdigest e he⟩⟩
    · rw [hrest, Nat.mul_mod_left]
    · rw [hrest, Nat.mul_div_cancel _ hsize]

end ConcordBft.BCStateTran
