import ConcordBft.BCStateTran.State

set_option autoImplicit false

/-! # The consistency check (`BCStateTran::checkConsistency`)

The check stops at the first condition that does not hold. The conditions on the configuration that
`init` has stored hold by construction and are left out. -/

namespace ConcordBft.BCStateTran

open Checked

variable (cfg : Config)

/-- `CH`: goes on only if the first check succeeds. -/
def andThen (first rest : Except Failure Bool) : Except Failure Bool := do
  if ← first then rest else pure false

/-- The checks of a loop, in order. -/
def checkAll {α : Type} (check : α → Except Failure Bool) : List α → Except Failure Bool
  | [] => pure true
  | a :: rest => andThen (check a) (checkAll check rest)

/-- The numbers from `hi` down to `lo`. -/
def countDown (hi lo : ℕ) : List ℕ := ((List.range (hi + 1 - lo)).map fun k => lo + k).reverse

/-- `firstStoredCheckpoint` and `lastStoredCheckpoint` -/
def checkStoredRange (psd : InMemoryDataStore) : Bool :=
  decide (psd.firstStoredCheckpoint ≤ psd.lastStoredCheckpoint) &&
    decide (psd.lastStoredCheckpoint - psd.firstStoredCheckpoint + 1 ≤ cfg.maxNumOfStoredCheckpoints) &&
    (psd.lastStoredCheckpoint == 0 || psd.hasCheckpointDesc psd.lastStoredCheckpoint) &&
    (psd.firstStoredCheckpoint == 0 || psd.firstStoredCheckpoint == psd.lastStoredCheckpoint ||
      psd.hasCheckpointDesc psd.firstStoredCheckpoint)

/-- The digest of a block is not zero and stored in the next block. -/
def checkLink (as : AppState) (currBlock : ℕ) : Except Failure Bool := do
  let currDigest ← computeDigestOfBlock cfg currBlock ((as.getBlock currBlock).getD [])
  pure (!currDigest.isZero && currDigest == as.getPrevDigestFromBlock cfg (currBlock + 1))

def checkReachableBlocks (checkAllBlocks : Bool) (as : AppState) : Except Failure Bool :=
  if checkAllBlocks = true ∧ 0 < as.getLastReachableBlockNum then
    checkAll (checkLink cfg as) (countDown (as.getLastReachableBlockNum - 1) 1)
  else pure true

/-- `while (as_->hasBlock(x)) x--` from `x` on; block 0 does not exist. -/
def lowerEnd (as : AppState) : ℕ → ℕ
  | 0 => 0
  | x + 1 => if as.hasBlock (x + 1) then lowerEnd as x else x + 1

/-- Blocks above the last reachable one: there must be a single hole, and it is looked for in the
    state `GettingMissingResPages`. -/
def checkUnreachableBlocks (st : BCStateTran) : Except Failure Bool :=
  let lastReachableBlockNum := st.as.getLastReachableBlockNum
  let lastBlockNum := st.as.getLastBlockNum
  if lastBlockNum < lastReachableBlockNum then pure false
  else if lastReachableBlockNum < lastBlockNum then do
    let fs ← st.getFetchingState
    let x := lowerEnd st.as (lastBlockNum - 1)
    pure (decide (fs = .GettingMissingResPages) && decide (lastReachableBlockNum < x) &&
      (countDown x (lastReachableBlockNum + 1)).all fun i => !st.as.hasBlock i)
  else pure true

/-- The blocks that are being fetched. -/
def checkFetchedBlocks (checkAllBlocks : Bool) (st : BCStateTran) : Except Failure Bool :=
  if st.as.getLastReachableBlockNum < st.as.getLastBlockNum then
    andThen (pure (st.psd.fetching && st.psd.hasCheckpointBeingFetched &&
        (st.psd.firstRequiredBlock == st.as.getLastReachableBlockNum + 1) &&
        decide (st.psd.firstRequiredBlock ≤ st.psd.lastRequiredBlock)))
      (if checkAllBlocks then
        checkAll (checkLink cfg st.as)
          (countDown (st.as.getLastBlockNum - 1) (st.psd.lastRequiredBlock + 1))
      else pure true)
  else pure true

/-- One page of a stored checkpoint. -/
def checkPageOfCheckpoint (psd : InMemoryDataStore) (i : ℕ) (allPagesDesc : ResPagesDescriptor)
    (j : ℕ) : Except Failure Bool :=
  match allPagesDesc[j]? with
  | none => .error .outOfRange
  | some d =>
    andThen (pure (decide (d.pageId = j) && decide (d.relevantCheckpoint ≤ i) &&
        decide (0 < d.relevantCheckpoint))) (do
      let (actualCheckpoint, _, page) ← psd.copyResPage j i kSizeOfReservedPage
      pure (decide (d.relevantCheckpoint = actualCheckpoint) &&
        cfg.digestOfPage j actualCheckpoint page == d.pageDigest))

/-- The blocks and pages of one stored checkpoint. -/
def checkCheckpoint (st : BCStateTran) (prevLastBlockNum i : ℕ) (desc : CheckpointDesc) :
    Except Failure Bool :=
  andThen (pure (decide (desc.checkpointNum = i) &&
      decide (desc.lastBlock ≤ st.as.getLastReachableBlockNum) &&
      decide (prevLastBlockNum ≤ desc.lastBlock)))
    (andThen
      (if 0 < desc.lastBlock then do
        let d ← computeDigestOfBlock cfg desc.lastBlock ((st.as.getBlock desc.lastBlock).getD [])
        pure (d == desc.digestOfLastBlock)
      else pure true)
      (do
        let allPagesDesc ← st.psd.getResPagesDescriptor cfg i
        andThen (pure (decide (allPagesDesc.length = cfg.numberOfReservedPages) &&
            cfg.digestOfPagesDescriptor allPagesDesc == desc.digestOfResPagesDescriptor))
          (checkAll (checkPageOfCheckpoint cfg st.psd i allPagesDesc)
            (List.range cfg.numberOfReservedPages))))

/-- The loop over the stored checkpoints; numbers without a descriptor are passed over. -/
def checkCheckpointsFrom (st : BCStateTran) : ℕ → List ℕ → Except Failure Bool
  | _, [] => pure true
  | prevLastBlockNum, i :: rest =>
    if st.psd.hasCheckpointDesc i = false then checkCheckpointsFrom st prevLastBlockNum rest
    else do
      let desc ← st.psd.getCheckpointDesc i
      andThen (st.checkCheckpoint cfg prevLastBlockNum i desc)
        (checkCheckpointsFrom st desc.lastBlock rest)

/-- The stored checkpoints fit together. -/
def checkStoredCheckpoints (st : BCStateTran) : Except Failure Bool :=
  if 0 < st.psd.lastStoredCheckpoint then
    st.checkCheckpointsFrom cfg 0
      (List.range' st.psd.firstStoredCheckpoint
        (st.psd.lastStoredCheckpoint + 1 - st.psd.firstStoredCheckpoint))
  else pure true

/-- What has to be there in each state of the fetching. -/
def checkFetchingInfo (psd : InMemoryDataStore) : Bool :=
  if psd.fetching = false then
    !psd.hasCheckpointBeingFetched && psd.firstRequiredBlock == 0 && psd.lastRequiredBlock == 0
  else if psd.hasCheckpointBeingFetched = false then
    psd.firstRequiredBlock == 0 && psd.lastRequiredBlock == 0 && psd.numOfAllPendingResPage == 0
  else if 0 < psd.lastRequiredBlock then
    decide (0 < psd.firstRequiredBlock) && psd.numOfAllPendingResPage == 0
  else psd.numOfAllPendingResPage == 0

/-- All checks of a replica that starts. -/
def checkConsistency (st : BCStateTran) (checkAllBlocks : Bool) : Except Failure Bool :=
  andThen (pure (checkStoredRange cfg st.psd))
    (andThen (checkReachableBlocks cfg checkAllBlocks st.as)
      (andThen st.checkUnreachableBlocks
        (andThen (st.checkFetchedBlocks cfg checkAllBlocks)
          (andThen (st.checkStoredCheckpoints cfg) (pure (checkFetchingInfo st.psd))))))

end ConcordBft.BCStateTran
