import ConcordBft.BCStateTran.State

set_option autoImplicit false

/-! # Checkpoints and reserved pages (`BCStateTran.cpp`)

The calls of the replica: a checkpoint of the current state is created, and reserved pages are read and
written. The module is running. -/

namespace ConcordBft.BCStateTran

open Checked

variable (cfg : Config)

/-- The loop of `init` that makes all reserved pages pending and zero. -/
def zeroPages (n : ℕ) : OrderedMap ℕ Page :=
  (List.range n).foldl (fun pages i => pages.insert i (Page.padded [])) .empty

/-- A new object after `init` and `startRunning`. -/
def init (as : AppState) : BCStateTran :=
  { as := as, psd := { pendingPages := zeroPages cfg.numberOfReservedPages } }

/-! ## Creating checkpoints -/

/-- The descriptor of the current state. -/
def createCheckpointDesc (st : BCStateTran) (checkpointNumber : ℕ)
    (digestOfResPagesDescriptor : STDigest) : Except Failure CheckpointDesc := do
  let lastBlock := st.as.getLastReachableBlockNum
  Assert (lastBlock = st.as.getLastBlockNum)
  let digestOfLastBlock ← (if 0 < lastBlock then
      computeDigestOfBlock cfg lastBlock ((st.as.getBlock lastBlock).getD [])
    else pure Digest.zero)
  pure ⟨checkpointNumber, lastBlock, digestOfLastBlock, digestOfResPagesDescriptor⟩

/-- One pending page becomes a version of the checkpoint. -/
def checkpointPage (checkpointNumber : ℕ) (psd : InMemoryDataStore) (p : ℕ) :
    Except Failure InMemoryDataStore := do
  let page ← psd.getPendingResPage p kSizeOfReservedPage
  psd.associatePendingResPageWithCheckpoint p checkpointNumber (cfg.digestOfPage p checkpointNumber page)

/-- Returns the digest of the descriptor of all reserved pages. -/
def checkpointReservedPages (psd : InMemoryDataStore) (checkpointNumber : ℕ) :
    Except Failure (InMemoryDataStore × STDigest) := do
  let psd ← psd.getNumbersOfPendingResPages.foldlM (checkpointPage cfg checkpointNumber) psd
  Assert (psd.numOfAllPendingResPage = 0)
  let allPagesDesc ← psd.getResPagesDescriptor cfg checkpointNumber
  Assert (allPagesDesc.length = cfg.numberOfReservedPages)
  pure (psd, cfg.digestOfPagesDescriptor allPagesDesc)

def deleteOldCheckpoints (psd : InMemoryDataStore) (checkpointNumber : ℕ) :
    Except Failure InMemoryDataStore := do
  let minRelevantCheckpoint :=
    if cfg.maxNumOfStoredCheckpoints < checkpointNumber then
      checkpointNumber - cfg.maxNumOfStoredCheckpoints
    else 0
  let oldFirstStoredCheckpoint := psd.firstStoredCheckpoint
  let psd ← (if 2 ≤ minRelevantCheckpoint ∧ oldFirstStoredCheckpoint < minRelevantCheckpoint then
      (psd.deleteDescOfSmallerCheckpoints minRelevantCheckpoint).deleteCoveredResPageInSmallerCheckpoints
        cfg minRelevantCheckpoint
    else pure psd)
  let psd := if oldFirstStoredCheckpoint < minRelevantCheckpoint then
      { psd with firstStoredCheckpoint := minRelevantCheckpoint }
    else psd
  pure { psd with lastStoredCheckpoint := checkpointNumber }

def createCheckpointOfCurrentState (st : BCStateTran) (checkpointNumber : ℕ) :
    Except Failure BCStateTran := do
  Assert (st.isFetching = false)
  Assert (0 < checkpointNumber)
  Assert (st.psd.lastStoredCheckpoint < checkpointNumber)
  let (psd, digestOfResPagesDescriptor) ← checkpointReservedPages cfg st.psd checkpointNumber
  let checkDesc ← st.createCheckpointDesc cfg checkpointNumber digestOfResPagesDescriptor
  let psd ← psd.setCheckpointDesc checkpointNumber checkDesc
  let psd ← deleteOldCheckpoints cfg psd checkpointNumber
  pure { st with psd := psd }

/-- Only assertions. -/
def markCheckpointAsStable (st : BCStateTran) (checkpointNumber : ℕ) : Except Failure BCStateTran := do
  Assert (st.isFetching = false)
  Assert (0 < checkpointNumber)
  Assert (st.psd.lastStoredCheckpoint < cfg.maxNumOfStoredCheckpoints ∨
    st.psd.lastStoredCheckpoint - cfg.maxNumOfStoredCheckpoints + 1 ≤ checkpointNumber)
  Assert (checkpointNumber ≤ st.psd.lastStoredCheckpoint)
  pure st

/-! ## Reserved pages -/

def loadReservedPage (st : BCStateTran) (reservedPageId copyLength : ℕ) : Except Failure Bytes := do
  Assert (st.isFetching = false)
  Assert (reservedPageId < cfg.numberOfReservedPages)
  Assert (copyLength ≤ kSizeOfReservedPage)
  if st.psd.hasPendingResPage reservedPageId then st.psd.getPendingResPage reservedPageId copyLength
  else do
    let lastCheckpoint := st.psd.lastStoredCheckpoint
    let (t, _, page) ← st.psd.copyResPage reservedPageId lastCheckpoint copyLength
    Assert (t ≤ lastCheckpoint)
    pure page

/-- `copyLength` is the length of the data. -/
def saveReservedPage (st : BCStateTran) (reservedPageId : ℕ) (inReservedPage : Bytes) :
    Except Failure BCStateTran := do
  Assert (st.isFetching = false)
  Assert (reservedPageId < cfg.numberOfReservedPages)
  Assert (inReservedPage.length ≤ kSizeOfReservedPage)
  let psd ← st.psd.setPendingResPage reservedPageId inReservedPage
  pure { st with psd := psd }

/-- Fills a page with zeros. -/
def zeroReservedPage (st : BCStateTran) (reservedPageId : ℕ) : Except Failure BCStateTran := do
  Assert (st.isFetching = false)
  Assert (reservedPageId < cfg.numberOfReservedPages)
  let psd ← st.psd.setPendingResPage reservedPageId (List.replicate kSizeOfReservedPage 0)
  pure { st with psd := psd }

end ConcordBft.BCStateTran
