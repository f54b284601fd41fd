import ConcordBft.Lib.Checked
import ConcordBft.Lib.OrderedMap
import ConcordBft.Types
import Mathlib.Algebra.Order.Group.Nat
import Mathlib.Data.Prod.Lex

set_option autoImplicit false

/-! # The store of the state transfer (`InMemoryDataStore.cpp`)

Written reserved pages are pending until a checkpoint is created; then each of them becomes a version
of its page, labelled by the checkpoint. A page that is not written keeps its version, so the content
of a page at a checkpoint is its newest version that is not above the checkpoint. Versions that no
stored checkpoint needs are deleted.

Checkpoint and block numbers are natural numbers: nothing here depends on their width. The values that
`init` writes once (`maxNumOfStoredCheckpoints`, `numberOfReservedPages`) are in the configuration. -/

namespace ConcordBft.BCStateTran

open Checked

/-- How a function of the module stops. -/
inductive Failure where
  /-- `Assert` or `assert` -/
  | assertion
  /-- Not an assertion: an access outside of a buffer. -/
  | outOfRange
  /-- Not an assertion: code that the model does not follow, because no run gets there. -/
  | notModelled
deriving DecidableEq, Repr

/-- An assertion of the module. -/
def Assert (expr : Prop) [Decidable expr] : Except Failure Unit :=
  Checked.require Failure.assertion expr

/-- The 32 bytes of a digest, as the number whose little-endian bytes they are. -/
abbrev STDigest := Digest

/-! ## Pages and descriptors -/

/-- The size of a reserved page in bytes. -/
def kSizeOfReservedPage : ℕ := 4096

def kMaxNumOfStoredCheckpoints : ℕ := 10

/-- The contents of a reserved page. -/
abbrev Page := { bytes : Bytes // bytes.length = kSizeOfReservedPage }

/-- `memcpy` of the data to the front of a page, and `memset` of the rest to zero. -/
def Page.padded (inPage : Bytes) : Page :=
  ⟨(inPage ++ List.replicate kSizeOfReservedPage 0).take kSizeOfReservedPage, by simp⟩

/-- A stored checkpoint: its last block and the digests of the block and of the pages. -/
structure CheckpointDesc where
  checkpointNum : ℕ := 0
  lastBlock : ℕ := 0
  digestOfLastBlock : STDigest := Digest.zero
  digestOfResPagesDescriptor : STDigest := Digest.zero
deriving DecidableEq, Repr

/-- The newest version of a page in a checkpoint. -/
structure SingleResPageDesc where
  pageId : ℕ
  relevantCheckpoint : ℕ
  pageDigest : STDigest
deriving DecidableEq, Repr

/-- `numOfPages` is the length of the list. -/
abbrev ResPagesDescriptor := List SingleResPageDesc

/-- A version of a page; versions are ordered by page, then the newest first. -/
@[ext]
structure ResPageKey where
  pageId : ℕ
  checkpoint : ℕ
deriving DecidableEq, Repr

/-- The order of the map of the versions: by page, and the newest version of a page first. -/
instance : LinearOrder ResPageKey :=
  LinearOrder.lift' (fun key => toLex (key.pageId, OrderDual.toDual key.checkpoint))
    fun a b h => by
      obtain ⟨hpage, hcheckpoint⟩ := Prod.mk.inj (toLex.injective h)
      exact ResPageKey.ext hpage (OrderDual.toDual.injective hcheckpoint)

/-- The contents of a version, with the digest. -/
structure ResPageVal where
  pageDigest : STDigest
  page : Page
deriving DecidableEq

/-! ## Configuration -/

/-- `Config`, with the arguments of `init`. `digestOfPage`, `digestOfPagesDescriptor` and
    `digestOfBlock` are the three digests that `BCStateTran` computes, and `prevDigestOf` is the
    digest of the previous block that the application stores in a block. -/
structure Config extends ReplicasInfo where
  myReplicaId : ReplicaId
  pedanticChecks : Bool
  maxBlockSize : ℕ
  maxChunkSize : ℕ
  maxNumberOfChunksInBatch : ℕ
  maxPendingDataFromSourceReplica : ℕ
  maxNumOfReservedPages : ℕ
  checkpointSummariesRetransmissionTimeoutMilli : ℕ
  maxAcceptableMsgDelayMilli : ℕ
  sourceReplicaReplacementTimeoutMilli : ℕ
  fetchRetransmissionTimeoutMilli : ℕ
  maxNumOfStoredCheckpoints : ℕ
  numberOfReservedPages : ℕ
  digestOfPage : ℕ → ℕ → Bytes → STDigest
  digestOfPagesDescriptor : ResPagesDescriptor → STDigest
  digestOfBlock : ℕ → Bytes → STDigest
  prevDigestOf : Bytes → STDigest
  myReplicaId_lt : myReplicaId < toReplicasInfo.numberOfReplicas
  maxNumOfStoredCheckpoints_ge : 2 ≤ maxNumOfStoredCheckpoints
  maxNumOfStoredCheckpoints_le : maxNumOfStoredCheckpoints ≤ kMaxNumOfStoredCheckpoints
  numberOfReservedPages_ge : 2 ≤ numberOfReservedPages
  numberOfReservedPages_le : numberOfReservedPages ≤ maxNumOfReservedPages
  maxChunkSize_pos : 0 < maxChunkSize

/-! ## The store -/

/-- What is stored: checkpoints, pending pages and versions of pages. -/
structure InMemoryDataStore where
  lastStoredCheckpoint : ℕ := 0
  firstStoredCheckpoint : ℕ := 0
  descMap : OrderedMap ℕ CheckpointDesc := .empty
  fetching : Bool := false
  /-- none if the number is 0 -/
  checkpointBeingFetched : CheckpointDesc := {}
  firstRequiredBlock : ℕ := 0
  lastRequiredBlock : ℕ := 0
  pendingPages : OrderedMap ℕ Page := .empty
  pages : OrderedMap ResPageKey ResPageVal := .empty

namespace InMemoryDataStore

/-! ### Checkpoints -/

variable (psd : InMemoryDataStore)

/-- A checkpoint is stored once. -/
def setCheckpointDesc (checkpoint : ℕ) (desc : CheckpointDesc) :
    Except Failure InMemoryDataStore := do
  Assert (checkpoint = desc.checkpointNum)
  Assert (psd.descMap.contains checkpoint = false)
  pure { psd with descMap := psd.descMap.insert checkpoint desc }

/-- Whether a checkpoint is stored. -/
def hasCheckpointDesc (checkpoint : ℕ) : Bool := psd.descMap.contains checkpoint

/-- The descriptor of a stored checkpoint. -/
def getCheckpointDesc (checkpoint : ℕ) : Except Failure CheckpointDesc :=
  match psd.descMap.find? checkpoint with
  | none => .error .assertion
  | some desc => do
      Assert (checkpoint = desc.checkpointNum)
      pure desc

def deleteDescOfSmallerCheckpoints (checkpoint : ℕ) : InMemoryDataStore :=
  { psd with descMap := psd.descMap.filter fun e => decide (checkpoint ≤ e.1) }

def hasCheckpointBeingFetched : Bool := psd.checkpointBeingFetched.checkpointNum != 0

def setCheckpointBeingFetched (c : CheckpointDesc) : Except Failure InMemoryDataStore := do
  Assert (psd.checkpointBeingFetched.checkpointNum = 0)
  pure { psd with checkpointBeingFetched := c }

def getCheckpointBeingFetched : Except Failure CheckpointDesc := do
  Assert (psd.checkpointBeingFetched.checkpointNum ≠ 0)
  pure psd.checkpointBeingFetched

/-- The fetch is over. -/
def deleteCheckpointBeingFetched : InMemoryDataStore := { psd with checkpointBeingFetched := {} }

/-! ### Pending pages -/

/-- A write to a page, padded with zeros. -/
def setPendingResPage (inPageId : ℕ) (inPage : Bytes) : Except Failure InMemoryDataStore := do
  Assert (inPage.length ≤ kSizeOfReservedPage)
  pure { psd with pendingPages := psd.pendingPages.insert inPageId (Page.padded inPage) }

def hasPendingResPage (inPageId : ℕ) : Bool := psd.pendingPages.contains inPageId

def getPendingResPage (inPageId pageLen : ℕ) : Except Failure Bytes := do
  Assert (pageLen ≤ kSizeOfReservedPage)
  match psd.pendingPages.find? inPageId with
  | none => .error .assertion
  | some page => pure (page.1.take pageLen)

/-- The number of pages that were written. -/
def numOfAllPendingResPage : ℕ := psd.pendingPages.size

/-- The pages that were written. -/
def getNumbersOfPendingResPages : List ℕ := psd.pendingPages.keys

def deleteAllPendingPages : InMemoryDataStore := { psd with pendingPages := .empty }

/-! ### Versions -/

/-- Adds a version of a page; there must be none with the same key. -/
def addVersion (key : ResPageKey) (val : ResPageVal) : Except Failure InMemoryDataStore := do
  Assert (psd.pages.contains key = false)
  pure { psd with pages := psd.pages.insert key val }

/-- Stores a fetched version of a page. -/
def setResPage (inPageId inCheckpoint : ℕ) (inPageDigest : STDigest) (inPage : Bytes) :
    Except Failure InMemoryDataStore :=
  psd.addVersion ⟨inPageId, inCheckpoint⟩ ⟨inPageDigest, Page.padded inPage⟩

/-- Moves a pending page to the versions. -/
def associatePendingResPageWithCheckpoint (inPageId inCheckpoint : ℕ) (inPageDigest : STDigest) :
    Except Failure InMemoryDataStore :=
  match psd.pendingPages.find? inPageId with
  | none => .error .assertion
  | some page => do
      let psd ← psd.addVersion ⟨inPageId, inCheckpoint⟩ ⟨inPageDigest, page⟩
      pure { psd with pendingPages := psd.pendingPages.erase inPageId }

/-- The newest version of a page that is not above a checkpoint, with its label. -/
def getResPage (inPageId inCheckpoint : ℕ) : Except Failure (ℕ × ResPageVal) := do
  Assert (inCheckpoint ≤ psd.lastStoredCheckpoint)
  match psd.pages.lowerBound ⟨inPageId, inCheckpoint⟩ with
  | none => .error .assertion
  | some (key, val) => do
      Assert (key.pageId = inPageId)
      Assert (key.checkpoint ≤ inCheckpoint)
      pure (key.checkpoint, val)

/-- `getResPage` with an output buffer for the page. -/
def copyResPage (inPageId inCheckpoint copylength : ℕ) : Except Failure (ℕ × STDigest × Bytes) := do
  Assert (copylength ≤ kSizeOfReservedPage)
  let (actualCheckpoint, val) ← psd.getResPage inPageId inCheckpoint
  Assert (0 < copylength)
  pure (actualCheckpoint, val.pageDigest, val.page.1.take copylength)

/-- The loop of `deleteCoveredResPageInSmallerCheckpoints` after its first entry: the versions of a
    page after its first one that is not above `inMinRelevantCheckpoint` are dropped. -/
def withoutCovered (inMinRelevantCheckpoint : ℕ) :
    ℕ → Bool → List (ResPageKey × ResPageVal) → List (ResPageKey × ResPageVal)
  | _, _, [] => []
  | prevItemPageId, prevItemIsInLastRelevantCheckpoint, e :: rest =>
    if e.1.pageId = prevItemPageId ∧ prevItemIsInLastRelevantCheckpoint = true then
      withoutCovered inMinRelevantCheckpoint prevItemPageId prevItemIsInLastRelevantCheckpoint rest
    else
      e :: withoutCovered inMinRelevantCheckpoint e.1.pageId
        (decide (e.1.checkpoint ≤ inMinRelevantCheckpoint)) rest

theorem withoutCovered_sublist (minRelevant prevPage : ℕ) (prevIn : Bool)
    (l : List (ResPageKey × ResPageVal)) : (withoutCovered minRelevant prevPage prevIn l).Sublist l := by
  induction l generalizing prevPage prevIn with
  | nil => exact List.Sublist.slnil
  | cons e rest ih =>
    unfold withoutCovered
    split_ifs
    · exact (ih prevPage prevIn).cons e
    · exact (ih e.1.pageId _).cons_cons e

/-- The versions that are left. Before the first entry no page has been seen. -/
def uncovered (inMinRelevantCheckpoint : ℕ) (pages : OrderedMap ResPageKey ResPageVal) :
    OrderedMap ResPageKey ResPageVal :=
  pages.ofSublist _ (withoutCovered_sublist inMinRelevantCheckpoint 0 false pages.entries)

def deleteCoveredResPageInSmallerCheckpoints (cfg : Config) (psd : InMemoryDataStore)
    (inMinRelevantCheckpoint : ℕ) : Except Failure InMemoryDataStore :=
  if inMinRelevantCheckpoint ≤ 1 then pure psd
  else do
    Assert (cfg.numberOfReservedPages ≤ psd.pages.size)
    Assert (psd.pages.entries.head?.map (·.1.pageId) = some 0)
    let pages := uncovered inMinRelevantCheckpoint psd.pages
    Assert (cfg.numberOfReservedPages ≤ pages.size)
    Assert (pages.size ≤ cfg.numberOfReservedPages * (cfg.maxNumOfStoredCheckpoints + 1))
    pure { psd with pages := pages }

/-! ### Descriptors -/

/-- The loop of `getResPagesDescriptor`; the next page is the number of pages described so far. An
    element behind the end of the array is an access out of range. -/
def describePages (cfg : Config) (inCheckpoint : ℕ) :
    ResPagesDescriptor → List (ResPageKey × ResPageVal) → Except Failure ResPagesDescriptor
  | desc, [] => pure desc
  | desc, e :: rest =>
    if desc.length = e.1.pageId ∧ e.1.checkpoint ≤ inCheckpoint then do
      require Failure.outOfRange (desc.length < cfg.numberOfReservedPages)
      describePages cfg inCheckpoint
        (desc ++ [⟨desc.length, e.1.checkpoint, e.2.pageDigest⟩]) rest
    else describePages cfg inCheckpoint desc rest

def getResPagesDescriptor (cfg : Config) (psd : InMemoryDataStore) (inCheckpoint : ℕ) :
    Except Failure ResPagesDescriptor :=
  if 1 ≤ inCheckpoint then do
    let desc ← describePages cfg inCheckpoint [] psd.pages.entries
    Assert (desc.length = cfg.numberOfReservedPages)
    pure desc
  else pure ((List.range cfg.numberOfReservedPages).map fun i => ⟨i, 0, Digest.zero⟩)

end InMemoryDataStore

end ConcordBft.BCStateTran
