import ConcordBft.BCStateTran.State
import ConcordBft.Lib.LittleEndian

set_option autoImplicit false

/-! # Virtual blocks (`BCStateTran.cpp`)

Reserved pages are sent as one virtual block: a header, and one element for each page that has changed
since the last checkpoint of the requester. The requester merges the elements with its own descriptor
and compares the digest of the result with the certified one. -/

namespace ConcordBft.BCStateTran

open Checked LittleEndian

/-! ## Layout -/

/-- The field of `width` bytes at an offset. -/
def readField (bytes : Bytes) (offset width : ℕ) : ℕ :=
  decode ((bytes.drop offset).take width)

/-- A version of a page in a virtual block. -/
structure ElementOfVirtualBlock where
  pageId : ℕ
  checkpointNumber : ℕ
  pageDigest : STDigest
  page : Bytes
deriving DecidableEq, Repr

/-- The packed bytes of an element. -/
def ElementOfVirtualBlock.bytes (e : ElementOfVirtualBlock) : Bytes :=
  encode 4 e.pageId ++ (encode 8 e.checkpointNumber ++
    (encode 32 e.pageDigest.toNat ++ e.page))

/-- The packed bytes of a header. -/
def headerBytes (numberOfUpdatedPages lastCheckpointKnownToRequester : ℕ) : Bytes :=
  encode 4 numberOfUpdatedPages ++ encode 8 lastCheckpointKnownToRequester

variable (vblock : Bytes)

/-- `getNumberOfElements` -/
def getNumberOfElements : ℕ := readField vblock 0 4

def lastCheckpointKnownToRequester : ℕ := readField vblock 4 8

/-- The element at an index, without the check of `getVirtualElement`. -/
def elementAt (index : ℕ) : ElementOfVirtualBlock :=
  let offset := sizeOfHeaderOfVirtualBlock + index * elementSize
  ⟨readField vblock offset 4, readField vblock (offset + 4) 8,
    BitVec.ofNat 256 (readField vblock (offset + 12) 32),
    (vblock.drop (offset + 44)).take kSizeOfReservedPage⟩

/-- The elements that the header announces. -/
def elementsOf : List ElementOfVirtualBlock :=
  (List.range (getNumberOfElements vblock)).map (elementAt vblock)

/-- A `uint32_t`. -/
def getSizeOfVirtualBlock : ℕ :=
  (sizeOfHeaderOfVirtualBlock + getNumberOfElements vblock * elementSize) % 2 ^ 32

/-! ## Structure -/

/-- The loop of `checkStructureOfVirtualBlock`; the first element has no predecessor. -/
def checkElements (lastCheckpointKnownToRequester : ℕ) :
    Option ℕ → List ElementOfVirtualBlock → Bool
  | _, [] => true
  | lastPageId, e :: rest =>
    decide (lastCheckpointKnownToRequester < e.checkpointNumber) && !e.pageDigest.isZero &&
      (lastPageId.all fun last => decide (last < e.pageId)) &&
      checkElements lastCheckpointKnownToRequester (some e.pageId) rest

def checkStructureOfVirtualBlock : Bool :=
  decide (sizeOfHeaderOfVirtualBlock ≤ vblock.length) &&
    decide ((vblock.length - sizeOfHeaderOfVirtualBlock) % elementSize = 0) &&
    decide ((vblock.length - sizeOfHeaderOfVirtualBlock) / elementSize = getNumberOfElements vblock) &&
    checkElements (lastCheckpointKnownToRequester vblock) none (elementsOf vblock)

/-! ## Creating -/

variable (cfg : Config) (psd : InMemoryDataStore) (desc : DescOfVBlockForResPages)

/-- The pages whose version at the checkpoint is newer than the last one of the requester. -/
def updatedPages : Except Failure (List ℕ) :=
  (List.range cfg.numberOfReservedPages).foldlM (fun updated i => do
    let (actualPageCheckpoint, _) ← psd.getResPage i desc.checkpointNum
    Assert (actualPageCheckpoint ≤ desc.checkpointNum)
    pure (if desc.lastCheckpointKnownToRequester < actualPageCheckpoint then updated ++ [i]
      else updated)) []

/-- The version of a page in a checkpoint. -/
def elementOfPage (pageId : ℕ) : Except Failure ElementOfVirtualBlock := do
  let (actualPageCheckpoint, pageDigest, page) ←
    psd.copyResPage pageId desc.checkpointNum kSizeOfReservedPage
  Assert (actualPageCheckpoint ≤ desc.checkpointNum)
  Assert (desc.lastCheckpointKnownToRequester < actualPageCheckpoint)
  Assert (pageDigest.isZero = false)
  pure ⟨pageId, actualPageCheckpoint, pageDigest, page⟩

/-- The index of the elements is a `uint16_t`, which is compared with their number at the end. -/
def createVBlock : Except Failure Bytes := do
  Assert (psd.hasCheckpointDesc desc.checkpointNum = true)
  let pages ← updatedPages cfg psd desc
  let elements ← pages.mapM (elementOfPage psd desc)
  let vblock := headerBytes pages.length desc.lastCheckpointKnownToRequester ++
    elements.flatMap (·.bytes)
  if pages.length = 0 then do
    Assert (checkStructureOfVirtualBlock vblock = true)
    pure vblock
  else do
    Assert (pages.length % 2 ^ 16 = pages.length)
    Assert (cfg.pedanticChecks = false ∨ checkStructureOfVirtualBlock vblock = true)
    pure vblock

/-! ## Checking -/

/-- The loop that merges the elements with the descriptor from page `i` on. It ends after the last
    page or after the last element. -/
def mergeUpdates (lastCheckpointKnownToRequester : ℕ) :
    ℕ → ResPagesDescriptor → List ElementOfVirtualBlock → Except Failure ResPagesDescriptor
  | _, pagesDesc, [] => pure pagesDesc
  | _, [], _ :: _ => pure []
  | i, d :: rest, nextUpdate :: updates => do
      Assert (d.pageId = i)
      Assert (d.relevantCheckpoint ≤ lastCheckpointKnownToRequester)
      if i = nextUpdate.pageId then do
        let merged ← mergeUpdates lastCheckpointKnownToRequester (i + 1) rest updates
        pure (⟨d.pageId, nextUpdate.checkpointNumber, nextUpdate.pageDigest⟩ :: merged)
      else do
        let merged ← mergeUpdates lastCheckpointKnownToRequester (i + 1) rest (nextUpdate :: updates)
        pure (d :: merged)

/-- The digests of the new pages. -/
def checkPages (cfg : Config) : List ElementOfVirtualBlock → Except Failure Bool
  | [] => pure true
  | e :: rest => do
      Assert (0 < e.checkpointNumber)
      if cfg.digestOfPage e.pageId e.checkpointNumber e.page ≠ e.pageDigest then pure false
      else checkPages cfg rest

def checkVirtualBlockOfResPages (cfg : Config) (psd : InMemoryDataStore)
    (expectedDigestOfResPagesDescriptor : STDigest) (vblock : Bytes) : Except Failure Bool :=
  if checkStructureOfVirtualBlock vblock = false then pure false
  else if psd.lastStoredCheckpoint ≠ lastCheckpointKnownToRequester vblock then pure false
  else do
    let pagesDesc ← psd.getResPagesDescriptor cfg (lastCheckpointKnownToRequester vblock)
    Assert (pagesDesc.length = cfg.numberOfReservedPages)
    let pagesDesc ←
      mergeUpdates (lastCheckpointKnownToRequester vblock) 0 pagesDesc (elementsOf vblock)
    if cfg.digestOfPagesDescriptor pagesDesc ≠ expectedDigestOfResPagesDescriptor then pure false
    else checkPages cfg (elementsOf vblock)

/-- The updated pages of an accepted virtual block are set. -/
def setResPages (psd : InMemoryDataStore) (updates : List ElementOfVirtualBlock) :
    Except Failure InMemoryDataStore :=
  updates.foldlM (fun psd e => psd.setResPage e.pageId e.checkpointNumber e.pageDigest e.page) psd

end ConcordBft.BCStateTran
