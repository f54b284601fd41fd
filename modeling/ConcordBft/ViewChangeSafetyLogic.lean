import ConcordBft.ViewChangeMsg
import ConcordBft.Lib.OrderedSet
import Mathlib.Data.List.Sort

set_option autoImplicit false

/-! # The selection rule of the view change (`ViewChangeSafetyLogic.cpp`)

From the view change messages of a new view, `computeRestrictions` decides for each sequence number
of the window which digest the new view has to propose again. All messages are walked at once, one
iterator per message. For one sequence number the elements that stand there are looked at twice:
first for prepared certificates, of which the valid one of the highest view is taken, then as votes,
of which `F + C + 1` for one digest from later views win over the certificate.

Certificates are collected in a `std::set` ordered by view and digest before any of them is
verified, so of two certificates with the same view and digest only the one whose iterator stands
first is ever verified. Iterators that are no longer needed are replaced by the last one, which
changes the order in which the others stand. -/

namespace ConcordBft

/-- The parameters of the logic. -/
structure ViewChangeSafetyLogic where
  F : ℕ
  C : ℕ
  /-- `preparedCertVerifier->verify` -/
  preparedCertVerifier : Digest → Bytes → Bool
  nullDigest : Digest := Digest.nullDigest

/-- What a new view may propose for a number. -/
structure Restriction where
  digest : Digest := Digest.zero
  isNull : Bool := true
deriving DecidableEq, Repr

/-- A new array of `kWorkWindowSize` restrictions. -/
def newRestrictions : List Restriction := List.replicate kWorkWindowSize.toNat {}

theorem newRestrictions_length : (newRestrictions.length : Int) = kWorkWindowSize := by
  rw [newRestrictions, List.length_replicate]
  rfl

/-- An element together with its prepared certificate. -/
structure SlowElem where
  e : Element
  c : PreparedCertificate
deriving DecidableEq, Repr

/-- An element with its certificate. -/
def SlowElem.ofElement (e : Element) : Option SlowElem :=
  e.preparedCertificate.map fun c => ⟨e, c⟩

/-- Higher certificate views first, then the order of the digests. -/
def SlowElemCompare (lhs rhs : SlowElem) : Bool :=
  if lhs.c.certificateView ≠ rhs.c.certificateView then
    rhs.c.certificateView < lhs.c.certificateView
  else lhs.e.prePrepreDigest < rhs.e.prePrepreDigest

/-- The output of `computeRestrictions`. -/
structure RestrictionsOfView where
  minRestrictedSeqNum : SeqNum
  maxRestrictedSeqNum : SeqNum
  restrictions : List Restriction
deriving DecidableEq, Repr

/-- The entry for `s` of an array that was filled with the given lower bound. -/
def RestrictionsOfView.restrictionAt (out : RestrictionsOfView) (inLBStableForView s : SeqNum) :
    Option Restriction :=
  out.restrictions[(s - (inLBStableForView + 1)).toNat]?

namespace ViewChangeSafetyLogic

variable (l : ViewChangeSafetyLogic) (msgs : ReplicaId → Option ViewChangeMsg)

/-- The number of replicas. -/
def N : ℕ := 3 * l.F + 2 * l.C + 1

/-! ## The lower bound -/

/-- The messages that are present, in the order of the replica ids. -/
def messages : List ViewChangeMsg := (List.range l.N).filterMap msgs

/-- The `(F + 1)`-th highest of the stable points that exactly `2F + 2C + 1` messages for one view
    report. -/
def calcLBStableForView : Except Failure SeqNum := do
  let vcs := l.messages msgs
  Assert (∀ vc ∈ vcs, ∀ vc' ∈ vcs, vc.newView = vc'.newView)
  Assert (vcs.length = 2 * l.F + 2 * l.C + 1)
  let stableNumbers := (vcs.map (·.lastStable)).insertionSort (· ≥ ·)
  match stableNumbers[l.F]? with
  | some lowerBoundOfLastStable => pure lowerBoundOfLastStable
  | none => .error .assertion

/-! ## One sequence number -/

/-- The header that the two collecting loops share: the current element of every iterator is at `s`
    or later. Returns those at `s`, in the order of the iterators. -/
def currentElements (s : SeqNum) : List ElementsIterator → Except Failure (List Element)
  | [] => pure []
  | currIter :: rest =>
    match currIter.getCurrent with
    | none => .error .assertion
    | some elem => do
        Assert (s ≤ elem.seqNum)
        let elems ← currentElements s rest
        pure (if elem.seqNum = s then elem :: elems else elems)

/-- `checkSlowPathCertificates`, after `lastElement`. -/
def checkSlowPathCertificates : Option SlowElem → List SlowElem → Except Failure Bool
  | _, [] => pure true
  | none, e :: rest => checkSlowPathCertificates (some e) rest
  | some lastElement, e :: rest =>
    if lastElement.c.certificateView < e.c.certificateView then pure false
    else do
      if e.c.certificateView = lastElement.c.certificateView then
        Assert (e.e.seqNum = lastElement.e.seqNum)
      checkSlowPathCertificates (some e) rest

/-- Does the certificate of the element verify? -/
def verifies (slow : SlowElem) : Bool :=
  l.preparedCertVerifier
    (Digest.calcCombination slow.e.prePrepreDigest slow.c.certificateView slow.e.seqNum)
    slow.c.certificateSig

/-- Select prepared certificate: the first one of the set that verifies. -/
def selectSlow (s : SeqNum) : List SlowElem → Except Failure (Option SlowElem)
  | [] => pure none
  | slow :: rest => do
      Assert (s = slow.e.seqNum)
      Assert (slow.c.certificateSig ≠ [])
      if l.verifies slow then pure (some slow) else selectSlow s rest

/-- Votes count from the view after the selected certificate on. -/
def minRelevantFastView : Option SlowElem → ViewNum
  | some selectedSlow => selectedSlow.c.certificateView + 1
  | none => 0

/-- Collect the vote of each replica. A digest that is met for the first time gets the counter 1;
    only when the counter is increased is it compared with `F + C + 1`. -/
def selectFast (minView : ViewNum) : (Digest → ℕ) → List Element → Option Element
  | _, [] => none
  | fastPathCounters, elem :: rest =>
    if minView ≤ elem.originView then
      let counter := fastPathCounters elem.prePrepreDigest
      if counter = 0 then
        selectFast minView (Function.update fastPathCounters elem.prePrepreDigest 1) rest
      else if counter + 1 = l.F + l.C + 1 then some elem
      else
        selectFast minView (Function.update fastPathCounters elem.prePrepreDigest (counter + 1)) rest
    else selectFast minView fastPathCounters rest

/-- `VCIterators[currentIdx] = VCIterators[IdxOfMaxLiveIterator]; VCIterators.pop_back()`, where the
    argument is the part of the vector after `currentIdx`. -/
def replaceByLast (rest : List ElementsIterator) : List ElementsIterator :=
  match rest.getLast? with
  | none => []
  | some last => last :: rest.dropLast

/-- Is the iterator needed after it was advanced? -/
def needed (upperBound : SeqNum) (it : ElementsIterator) : Bool :=
  match it.getCurrent with
  | none => false
  | some elem => elem.seqNum ≤ upperBound

/-- Advance the iterators that stand at `s` and remove those that are no longer needed. The number
    is how many iterators, from `currentIdx` on, are still to be looked at. -/
def advanceIterators (s upperBound : SeqNum) :
    ℕ → List ElementsIterator → Except Failure (List ElementsIterator)
  | 0, VCIterators => pure VCIterators
  | _ + 1, [] => pure []
  | n + 1, currIter :: rest =>
    match currIter.getCurrent with
    | none => .error .assertion
    | some elem =>
      if s < elem.seqNum then do
        let rest ← advanceIterators s upperBound n rest
        pure (currIter :: rest)
      else if needed upperBound currIter.gotoNext then do
        let rest ← advanceIterators s upperBound n rest
        pure (currIter.gotoNext :: rest)
      else advanceIterators s upperBound n (replaceByLast rest)

/-- Returns whether there is a restriction, its digest, and the advanced iterators. -/
def computeRestrictionsForSeqNum (s : SeqNum) (VCIterators : List ElementsIterator)
    (upperBound : SeqNum) : Except Failure (Bool × Digest × List ElementsIterator) := do
  Assert (VCIterators ≠ [])
  Assert (s ≤ upperBound)
  let elems ← currentElements s VCIterators
  let slowPathCertificates :=
    OrderedSet.ofList SlowElemCompare (elems.filterMap SlowElem.ofElement)
  let ok ← checkSlowPathCertificates none slowPathCertificates
  Assert (ok = true)
  let selectedSlow ← l.selectSlow s slowPathCertificates
  let selectedFastElement := l.selectFast (minRelevantFastView selectedSlow) (fun _ => 0) elems
  let VCIterators ← advanceIterators s upperBound VCIterators.length VCIterators
  match selectedFastElement, selectedSlow with
  | some fast, _ => pure (true, fast.prePrepreDigest, VCIterators)
  | none, some slow => pure (true, slow.e.prePrepreDigest, VCIterators)
  | none, none => pure (false, Digest.zero, VCIterators)

/-! ## The whole window -/

/-- One iterator for each message that has an element at `lowerBound` or later. -/
def createIterators (lowerBound : SeqNum) : List ElementsIterator :=
  ((l.messages msgs).map fun vc => ElementsIterator.goToAtLeast lowerBound vc.elements).filter
    fun it => !it.atEnd

/-- The two loops over the window: look for safety restrictions while there are iterators, then
    reset the remaining entries. Also returns the last restricted sequence number. -/
def computeRestrictionsFrom (upperBound : SeqNum) :
    SeqNum → List ElementsIterator → SeqNum → List Restriction →
      Except Failure (List Restriction × SeqNum)
  | _, _, lastRestcitionNum, [] => pure ([], lastRestcitionNum)
  | currSeqNum, VCIterators, lastRestcitionNum, r :: rest =>
    if VCIterators = [] then
      pure ((r :: rest).map fun r => { r with isNull := true }, lastRestcitionNum)
    else do
      let (hasRest, digest, VCIterators) ←
        l.computeRestrictionsForSeqNum currSeqNum VCIterators upperBound
      let restricted := hasRest && digest != l.nullDigest
      let lastRestcitionNum := if restricted then currSeqNum else lastRestcitionNum
      let (rest, lastRestcitionNum) ←
        computeRestrictionsFrom upperBound (currSeqNum + 1) VCIterators lastRestcitionNum rest
      pure ({ digest := digest, isNull := !restricted } :: rest, lastRestcitionNum)

/-- `outSafetyRestrictionsArray` is updated in place, so its old contents are an argument. -/
def computeRestrictions (inLBStableForView : SeqNum)
    (outSafetyRestrictionsArray : List Restriction) : Except Failure RestrictionsOfView := do
  let lowerBound := inLBStableForView + 1
  let upperBound := inLBStableForView + kWorkWindowSize
  let VCIterators := l.createIterators msgs lowerBound
  let (restrictions, lastRestcitionNum) ←
    l.computeRestrictionsFrom upperBound lowerBound VCIterators 0 outSafetyRestrictionsArray
  if VCIterators = [] then pure ⟨0, 0, restrictions⟩
  -- the "VC stable" patch
  else if 0 < lastRestcitionNum ∧ lastRestcitionNum ≤ upperBound - checkpointWindowSize then
    pure ⟨lowerBound, upperBound - checkpointWindowSize, restrictions⟩
  else pure ⟨lowerBound, upperBound, restrictions⟩

end ViewChangeSafetyLogic

end ConcordBft
