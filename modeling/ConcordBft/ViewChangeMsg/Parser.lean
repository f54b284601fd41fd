import ConcordBft.ViewChangeMsg.Wire

set_option autoImplicit false

/-! # Receiving the bytes of a view change message (`ViewChangeMsg.cpp`)

`ToActualMsgType` checks the bytes of a message, and `ElementsIterator` later walks over the
elements of an accepted one with assertions in place of checks. All locations are 16-bit numbers that
the sender has a say in. Two places are not safe: the sum of `locationAfterLast` and the length of
the signature wraps around, and the length of a certificate becomes a signed 16-bit number. Where
neither happens, everything that is read lies inside of the message, and an accepted message has the
elements that the iterator expects. -/

namespace ConcordBft

open LittleEndian Checked List

/-! ## Accepting a message -/

/-- What `ReplicasInfo` and `SigManager` tell the parser. -/
structure ParserConfig where
  isIdOfReplica : ReplicaId → Bool
  myId : ReplicaId
  getSigLength : ReplicaId → UInt16
  verifySig : ReplicaId → Bytes → Bytes → Bool

namespace ViewChangeBody

variable (cfg : ParserConfig) (body : Bytes)

/-- The sender that the header has. -/
def genReplicaId : ReplicaId := decode (field body 2 2)

/-- The part of the message that is signed. -/
def dataLength : ℕ :=
  if locationAfterLast body < sizeofViewChangeMsgHeader then sizeofViewChangeMsgHeader
  else locationAfterLast body

/-- The length of the sender's signatures. -/
def sigLen : ℕ := (cfg.getSigLength (genReplicaId body)).toNat

/-- `ViewChangeMsg::ToActualMsgType`; `none` if it reads outside of the message. -/
def ToActualMsgType : Option Bool :=
  if body.length < sizeofViewChangeMsgHeader then some false
  else if cfg.isIdOfReplica (genReplicaId body) = false then some false
  else if asUInt16 body.length < asUInt16 (dataLength body + sigLen cfg body) then some false
  else if genReplicaId body = cfg.myId then some false
  else
    (readAt body 0 (dataLength body)).bind fun data =>
    (readAt body (dataLength body) (sigLen cfg body)).bind fun sig =>
      if cfg.verifySig (genReplicaId body) data sig then checkElements body (sigLen cfg body)
      else some false

/-! ## The iterator -/

/-- How the iterator stops. -/
inductive IteratorFailure where
  | assertion
  | outsideMessage
deriving DecidableEq, Repr

/-- `ViewChangeMsg::ElementsIterator` -/
structure Iterator where
  endLoc : ℕ
  currLoc : ℕ
  nextElementNum : ℕ
deriving DecidableEq, Repr

namespace Iterator

variable (it : Iterator)

def start : Except IteratorFailure Iterator :=
  if numberOfElements body = 0 then pure ⟨0, 0, 1⟩
  else do
    require .assertion (sizeofViewChangeMsgHeader < locationAfterLast body)
    pure ⟨locationAfterLast body, sizeofViewChangeMsgHeader, 1⟩

/-- `end` -/
def atEnd : Except IteratorFailure Bool :=
  if it.endLoc ≤ it.currLoc then do
    require .assertion ((it.nextElementNum : Int) - 1 = numberOfElements body)
    pure true
  else pure false

/-- The bytes at a location of the message. -/
def read (location width : ℕ) : Except IteratorFailure Bytes :=
  match readAt body location width with
  | some bytes => pure bytes
  | none => .error .outsideMessage

/-- The checks that `getCurrent` and `getAndGoToNext` make when they are not at the end: the bytes
    of the current element, and the size of what belongs to it. -/
def current : Except IteratorFailure (Bytes × ℕ) := do
  let remainingbytes := asUInt16 (it.endLoc - it.currLoc)
  require .assertion (sizeofElement ≤ remainingbytes)
  let element ← read body it.currLoc sizeofElement
  if decode (field element 48 1) = 0 then pure (element, sizeofElement)
  else do
    require .assertion (sizeofElement + sizeofPreparedCertificate ≤ remainingbytes)
    let certificate ← read body (it.currLoc + sizeofElement) sizeofPreparedCertificate
    let certificateSigLength := decode (field certificate 8 2)
    require .assertion
      (sizeofElement + sizeofPreparedCertificate + certificateSigLength ≤ remainingbytes)
    pure (element, sizeofElement + sizeofPreparedCertificate + certificateSigLength)

/-- Returns the element, or `none` at the end. -/
def getCurrent : Except IteratorFailure (Option Bytes) := do
  if ← it.atEnd body then pure none
  else
    let (element, _) ← it.current body
    pure (some element)

/-- The next element. -/
def getAndGoToNext : Except IteratorFailure (Option Bytes × Iterator) := do
  if ← it.atEnd body then pure (none, it)
  else
    let (element, size) ← it.current body
    pure (some element, { it with
      currLoc := asUInt16 (it.currLoc + size), nextElementNum := asUInt16 (it.nextElementNum + 1) })

/-- Goes behind the next element. -/
def gotoNext : Except IteratorFailure Iterator := do
  let (_, it) ← it.getAndGoToNext body
  pure it

/-- The loop of `goToAtLeast`. The iterator of a message goes forward as often as the message has
    elements at most; a loop that goes on longer is taken for a failed assertion. -/
def goToAtLeastLoop (lowerBound : SeqNum) : ℕ → Iterator → Except IteratorFailure Iterator
  | 0, _ => .error .assertion
  | fuel + 1, it => do
      match ← it.getCurrent body with
      | none => pure it
      | some element =>
        if decodeInt (field element 0 8) < lowerBound then do
          let it ← it.gotoNext body
          goToAtLeastLoop lowerBound fuel it
        else pure it

/-- Skips the elements below a number. -/
def goToAtLeast (lowerBound : SeqNum) (it : Iterator) : Except IteratorFailure Iterator :=
  goToAtLeastLoop body lowerBound (numberOfElements body + 1) it

/-- The operations that a user of an iterator may call. -/
inductive Operation where
  | atEnd
  | getCurrent
  | gotoNext
  | getAndGoToNext
  | goToAtLeast (lowerBound : SeqNum)
deriving DecidableEq, Repr

/-- The iterator after one operation. -/
def step : Operation → Except IteratorFailure Iterator
  | .atEnd => do
      let _ ← it.atEnd body
      pure it
  | .getCurrent => do
      let _ ← it.getCurrent body
      pure it
  | .gotoNext => it.gotoNext body
  | .getAndGoToNext => do
      let (_, it) ← it.getAndGoToNext body
      pure it
  | .goToAtLeast lowerBound => it.goToAtLeast body lowerBound

/-- The elements that the iterator yields with `n` calls of `getAndGoToNext`. -/
def yields : ℕ → Iterator → Except IteratorFailure (List (Option Bytes) × Iterator)
  | 0, it => pure ([], it)
  | n + 1, it => do
      let (element, it) ← it.getAndGoToNext body
      let (rest, it) ← yields n it
      pure (element :: rest, it)

end Iterator

/-! ## The elements in the bytes -/

/-- Of the `n` elements that stand one after the other from a location on, none has a certificate so
    long that its size is no `int16_t`. -/
def ShortCertificates : ℕ → ℕ → Prop
  | 0, _ => True
  | n + 1, loc =>
    (hasPreparedCertificateAt body loc = true →
      sizeofPreparedCertificate + certificateSigLengthAt body loc < 2 ^ 15) ∧
    ShortCertificates n (loc + sizeAt body loc)

/-- `n` elements that are fine stand one after the other between two locations of the message, with
    sequence numbers that increase from `last` on. -/
inductive Layout : ℕ → SeqNum → ℕ → ℕ → Prop
  | nil {last : SeqNum} {loc : ℕ} : Layout 0 last loc loc
  | cons {n : ℕ} {last : SeqNum} {loc endLoc : ℕ} (hfine : FineAt body last loc)
      (hinside : loc + sizeAt body loc ≤ body.length)
      (hrest : Layout n (seqNumAt body loc) (loc + sizeAt body loc) endLoc) :
      Layout (n + 1) last loc endLoc

theorem Layout.eq_of_zero {body : Bytes} {last : SeqNum} {loc endLoc : ℕ}
    (h : Layout body 0 last loc endLoc) : loc = endLoc := by
  cases h
  rfl

theorem Layout.room {body : Bytes} {n : ℕ} {last : SeqNum} {loc endLoc : ℕ}
    (h : Layout body n last loc endLoc) : loc + n * sizeofElement ≤ endLoc := by
  induction h with
  | nil => omega
  | @cons n last loc endLoc _ _ _ ih =>
    have hsize := sizeofElement_le_sizeAt body loc
    rw [Nat.succ_mul]
    omega

/-- **The loop over short certificates** reads only the message, and what it accepts is laid out up
    to the place where it stops. -/
theorem layout_of_checkElementsLoop {body : Bytes} (left : ℕ) {remainingBytes loc : ℕ}
    (last : SeqNum) (hin : loc + remainingBytes ≤ body.length) (hlt : remainingBytes < 2 ^ 16)
    (hshort : ShortCertificates body left loc) :
    ∃ found, checkElementsLoop body left last remainingBytes loc = some found ∧
      ∀ remaining ∈ found, ∃ endLoc, endLoc + remaining = loc + remainingBytes ∧
        Layout body left last loc endLoc := by
  induction left generalizing remainingBytes loc last with
  | zero =>
    refine ⟨some remainingBytes, rfl, ?_⟩
    rintro remaining ⟨⟩
    exact ⟨loc, rfl, .nil⟩
  | succ left ih =>
    obtain ⟨hcert, hrest⟩ := hshort
    rw [checkElementsLoop_succ hin hlt hcert]
    split_ifs with hfine
    · obtain ⟨hle, hfine⟩ := hfine
      obtain ⟨found, hloop, hfound⟩ := @ih (remainingBytes - sizeAt body loc)
        (loc + sizeAt body loc) (seqNumAt body loc) (by omega) (by omega) hrest
      refine ⟨found, hloop, fun remaining hremaining => ?_⟩
      obtain ⟨endLoc, hend, hlayout⟩ := hfound remaining hremaining
      exact ⟨endLoc, by omega, .cons hfine (by omega) hlayout⟩
    · simp

/-! ## Walking over a layout -/

namespace Iterator

/-- The iterator stands in front of `n` elements that reach to its end. -/
structure InFrontOf (n : ℕ) (last : SeqNum) (it : Iterator) : Prop where
  layout : Layout body n last it.currLoc it.endLoc
  endLoc_lt : it.endLoc < 2 ^ 16
  left_le : n ≤ numberOfElements body
  counted : it.nextElementNum = numberOfElements body - n + 1
  few : numberOfElements body < 2 ^ 15

variable {body} {n : ℕ} {last : SeqNum} {it : Iterator}

theorem InFrontOf.atEnd_zero (h : InFrontOf body 0 last it) : it.atEnd body = .ok true := by
  have hloc := h.layout.eq_of_zero
  have hcounted := h.counted
  rw [atEnd, if_pos (by omega), require_of (by omega)]
  rfl

section

variable (h : InFrontOf body (n + 1) last it)
include h

theorem InFrontOf.lt : it.currLoc + sizeAt body it.currLoc ≤ it.endLoc := by
  cases h.layout with
  | cons _ _ hrest => exact Nat.le_trans (Nat.le_add_right _ _) hrest.room

theorem InFrontOf.atEnd_succ : it.atEnd body = .ok false := by
  have hlt := h.lt
  have hsize := sizeofElement_le_sizeAt body it.currLoc
  unfold sizeofElement at hsize
  rw [atEnd, if_neg (by omega)]
  rfl

/-- The current element is read inside of the message. -/
theorem InFrontOf.current :
    it.current body = .ok (field body it.currLoc sizeofElement, sizeAt body it.currLoc) := by
  have hlt := h.lt
  have hend := h.endLoc_lt
  have hinside : it.currLoc + sizeAt body it.currLoc ≤ body.length := by
    cases h.layout with
    | cons _ hinside _ => exact hinside
  have hsize := sizeofElement_le_sizeAt body it.currLoc
  have hremaining : asUInt16 (it.endLoc - it.currLoc) = it.endLoc - it.currLoc := by
    unfold asUInt16
    omega
  have hread : read body it.currLoc sizeofElement = .ok (field body it.currLoc sizeofElement) := by
    rw [read, readAt_of_le (by omega)]
    rfl
  unfold Iterator.current
  dsimp only
  rw [require_of (by omega), ok_bind, hread, ok_bind, field_field _ (by decide)]
  by_cases hhas : decode (field body (it.currLoc + 48) 1) = 0
  · have hat : sizeAt body it.currLoc = sizeofElement := by
      simp [sizeAt, hasPreparedCertificateAt, hhas]
    rw [if_pos hhas, hat]
    rfl
  · have hat : sizeAt body it.currLoc = sizeofElement + sizeofPreparedCertificate +
        certificateSigLengthAt body it.currLoc := by
      simp [sizeAt, hasPreparedCertificateAt, hhas]
    have hreadCert : read body (it.currLoc + sizeofElement) sizeofPreparedCertificate =
        .ok (field body (it.currLoc + sizeofElement) sizeofPreparedCertificate) := by
      rw [read, readAt_of_le (by omega)]
      rfl
    rw [if_neg hhas, require_of (by omega), ok_bind, hreadCert, ok_bind]
    have hlength : decode (field (field body (it.currLoc + sizeofElement) sizeofPreparedCertificate)
        8 2) = certificateSigLengthAt body it.currLoc := by
      rw [field_field _ (by decide)]
      rfl
    rw [hlength, require_of (by omega), hat]
    rfl

end

/-- The iterator after the current element. -/
def next (body : Bytes) (it : Iterator) : Iterator :=
  ⟨it.endLoc, it.currLoc + sizeAt body it.currLoc, it.nextElementNum + 1⟩

theorem InFrontOf.next (h : InFrontOf body (n + 1) last it) :
    InFrontOf body n (seqNumAt body it.currLoc) (it.next body) := by
  have hleft := h.left_le
  have hcounted := h.counted
  cases h.layout with
  | cons _ _ hrest =>
    exact ⟨hrest, h.endLoc_lt, by omega, by simp only [Iterator.next]; omega, h.few⟩

theorem InFrontOf.getAndGoToNext (h : InFrontOf body (n + 1) last it) :
    it.getAndGoToNext body =
      .ok (some (field body it.currLoc sizeofElement), it.next body) := by
  have hlt := h.lt
  have hend := h.endLoc_lt
  have hcounted := h.counted
  have hfew := h.few
  have hloc : asUInt16 (it.currLoc + (sizeAt body it.currLoc : ℕ)) =
      it.currLoc + sizeAt body it.currLoc := by
    unfold asUInt16
    omega
  have hnum : asUInt16 (it.nextElementNum + 1) = it.nextElementNum + 1 := by
    unfold asUInt16
    omega
  rw [Iterator.getAndGoToNext, h.atEnd_succ, ok_bind, h.current, ok_bind]
  dsimp only
  rw [hloc, hnum]
  rfl

/-- The iterator stands in front of some elements that reach to its end. -/
def Legal (body : Bytes) (it : Iterator) : Prop := ∃ n last, InFrontOf body n last it

theorem InFrontOf.getAndGoToNext_legal (h : InFrontOf body n last it) :
    ∃ element it', it.getAndGoToNext body = .ok (element, it') ∧ Legal body it' := by
  cases n with
  | zero =>
    refine ⟨none, it, ?_, 0, last, h⟩
    rw [Iterator.getAndGoToNext, h.atEnd_zero]
    rfl
  | succ n => exact ⟨_, _, h.getAndGoToNext, n, _, h.next⟩

theorem InFrontOf.getCurrent_zero (h : InFrontOf body 0 last it) :
    it.getCurrent body = .ok none := by
  rw [Iterator.getCurrent, h.atEnd_zero]
  rfl

theorem InFrontOf.getCurrent_succ (h : InFrontOf body (n + 1) last it) :
    it.getCurrent body = .ok (some (field body it.currLoc sizeofElement)) := by
  rw [Iterator.getCurrent, h.atEnd_succ, h.current]
  rfl

/-- The loop goes forward once for each element at most. -/
theorem InFrontOf.goToAtLeastLoop_legal (h : InFrontOf body n last it) (lowerBound : SeqNum)
    {fuel : ℕ} (hfuel : n < fuel) :
    ∃ it', goToAtLeastLoop body lowerBound fuel it = .ok it' ∧ Legal body it' := by
  induction n generalizing fuel last it with
  | zero =>
    obtain ⟨fuel, rfl⟩ := Nat.exists_eq_add_of_lt hfuel
    refine ⟨it, ?_, 0, last, h⟩
    rw [goToAtLeastLoop, h.getCurrent_zero]
    rfl
  | succ n ih =>
    obtain ⟨fuel, rfl⟩ : ∃ k, fuel = k + 1 := ⟨fuel - 1, by omega⟩
    rw [goToAtLeastLoop, h.getCurrent_succ, ok_bind]
    dsimp only
    split_ifs
    · obtain ⟨it', hloop, hlegal⟩ := ih h.next (show n < fuel by omega)
      refine ⟨it', ?_, hlegal⟩
      rw [Iterator.gotoNext, h.getAndGoToNext]
      exact hloop
    · exact ⟨it, rfl, n + 1, last, h⟩

/-- **One operation** on a legal iterator returns and leaves a legal one. -/
theorem Legal.step (h : Legal body it) (op : Operation) :
    ∃ it', it.step body op = .ok it' ∧ Legal body it' := by
  obtain ⟨n, last, h⟩ := h
  obtain ⟨element, it', hnext, hlegal⟩ := h.getAndGoToNext_legal
  have hgoto : it.gotoNext body = .ok it' := by
    rw [Iterator.gotoNext, hnext]
    rfl
  cases op with
  | atEnd =>
    refine ⟨it, ?_, n, last, h⟩
    cases n with
    | zero =>
      rw [Iterator.step, h.atEnd_zero]
      rfl
    | succ n =>
      rw [Iterator.step, h.atEnd_succ]
      rfl
  | getCurrent =>
    refine ⟨it, ?_, n, last, h⟩
    cases n with
    | zero =>
      rw [Iterator.step, h.getCurrent_zero]
      rfl
    | succ n =>
      rw [Iterator.step, h.getCurrent_succ]
      rfl
  | gotoNext => exact ⟨it', hgoto, hlegal⟩
  | getAndGoToNext =>
    refine ⟨it', ?_, hlegal⟩
    rw [Iterator.step, hnext]
    rfl
  | goToAtLeast lowerBound =>
    exact h.goToAtLeastLoop_legal lowerBound (Nat.lt_succ_of_le h.left_le)

/-- **Every sequence of operations** on a legal iterator returns. -/
theorem Legal.run (h : Legal body it) (ops : List Operation) :
    ∃ it', ops.foldlM (Iterator.step body) it = .ok it' := by
  induction ops generalizing it with
  | nil => exact ⟨it, rfl⟩
  | cons op ops ih =>
    obtain ⟨it₁, hstep, hlegal⟩ := h.step op
    rw [foldlM_cons, hstep]
    exact ih hlegal

/-- The iterator yields the elements of the layout and stands at its end. -/
theorem InFrontOf.yields (h : InFrontOf body n last it) :
    ∃ (elements : List Bytes) (it' : Iterator),
      Iterator.yields body n it = .ok (elements.map some, it') ∧
      elements.length = n ∧
      elements.Pairwise (fun e e' => decodeInt (field e 0 8) < decodeInt (field e' 0 8)) ∧
      (∀ e ∈ elements, last < decodeInt (field e 0 8) ∧
        decodeInt (field e 0 8) ≤ lastStable body + kWorkWindowSize) ∧
      it'.atEnd body = .ok true ∧ it'.currLoc = it.endLoc := by
  induction n generalizing last it with
  | zero =>
    refine ⟨[], it, rfl, rfl, Pairwise.nil, by simp, h.atEnd_zero, h.layout.eq_of_zero⟩
  | succ n ih =>
    obtain ⟨elements, it', hyields, hlength, hsorted, hwindow, hend, hloc⟩ := ih h.next
    have hseq : decodeInt (field (field body it.currLoc sizeofElement) 0 8) =
        seqNumAt body it.currLoc := by
      rw [field_field _ (by decide)]
      rfl
    obtain ⟨hlast, hmax⟩ : last < seqNumAt body it.currLoc ∧
        seqNumAt body it.currLoc ≤ lastStable body + kWorkWindowSize := by
      cases h.layout with
      | cons hfine _ _ => exact ⟨hfine.1, le_trans hfine.2.1 (asInt64_le (le_window body))⟩
    refine ⟨field body it.currLoc sizeofElement :: elements, it', ?_, ?_, ?_, ?_, hend, hloc⟩
    · rw [Iterator.yields, h.getAndGoToNext, ok_bind]
      dsimp only
      rw [hyields]
      rfl
    · rw [length_cons, hlength]
    · refine pairwise_cons.2 ⟨fun e he => ?_, hsorted⟩
      rw [hseq]
      exact (hwindow e he).1
    · intro e he
      rcases mem_cons.1 he with rfl | he
      · rw [hseq]
        exact ⟨hlast, hmax⟩
      · exact ⟨lt_trans hlast (hwindow e he).1, (hwindow e he).2⟩

end Iterator

/-! ## What acceptance means -/

variable {body}

/-- Elements that reach to the location that the header has are in front of the new iterator. -/
theorem start_of_layout {endLoc : ℕ} (hlt : endLoc < 2 ^ 16)
    (hlayout : Layout body (numberOfElements body) (lastStable body) sizeofViewChangeMsgHeader
      endLoc)
    (hend : if 0 < numberOfElements body then (locationAfterLast body : Int) = asInt16 endLoc
      else locationAfterLast body = 0) :
    ∃ it, Iterator.start body = .ok it ∧
      it.InFrontOf body (numberOfElements body) (lastStable body) ∧
      it.endLoc = locationAfterLast body ∧
      (0 < numberOfElements body → it.currLoc = sizeofViewChangeMsgHeader) := by
  have hroom := hlayout.room
  have hfew : numberOfElements body < 2 ^ 15 := by
    unfold sizeofElement at hroom
    omega
  by_cases hzero : numberOfElements body = 0
  · rw [if_neg (by omega)] at hend
    refine ⟨⟨0, 0, 1⟩, ?_, ⟨?_, ?_, ?_, ?_, hfew⟩, hend.symm, ?_⟩
    · rw [Iterator.start, if_pos hzero]
      rfl
    · rw [hzero]
      exact .nil
    · norm_num
    · omega
    · simp only
      omega
    · omega
  · rw [asInt16_of_lt hlt] at hend
    have heq : locationAfterLast body = endLoc := by
      split_ifs at hend <;> omega
    have hbehind : sizeofViewChangeMsgHeader < locationAfterLast body := by
      have hone : 1 * sizeofElement ≤ numberOfElements body * sizeofElement :=
        Nat.mul_le_mul_right _ (by omega)
      unfold sizeofElement at hone hroom
      omega
    refine ⟨⟨locationAfterLast body, sizeofViewChangeMsgHeader, 1⟩, ?_, ⟨?_, ?_, ?_, ?_, hfew⟩, rfl,
      fun _ => rfl⟩
    · rw [Iterator.start, if_neg hzero, require_of hbehind]
      rfl
    · rw [heq]
      exact hlayout
    · simp only
      omega
    · omega
    · simp only
      omega

/-- `checkElements` over short certificates: what it accepts is laid out up to the location that the
    header has. -/
theorem checkElements_of_short {sigSize : ℕ}
    (hsig : sizeofViewChangeMsgHeader + sigSize ≤ body.length) (hlength : body.length < 2 ^ 16)
    (hshort : ShortCertificates body (numberOfElements body) sizeofViewChangeMsgHeader) :
    ∃ accepted, checkElements body sigSize = some accepted ∧
      (accepted = true → ∃ endLoc < 2 ^ 16,
        Layout body (numberOfElements body) (lastStable body) sizeofViewChangeMsgHeader endLoc ∧
        if 0 < numberOfElements body then (locationAfterLast body : Int) = asInt16 endLoc
        else locationAfterLast body = 0) := by
  have hremaining : asUInt16 (body.length - sigSize - sizeofViewChangeMsgHeader) =
      body.length - sigSize - sizeofViewChangeMsgHeader := by
    unfold asUInt16
    omega
  obtain ⟨found, hloop, hfound⟩ := layout_of_checkElementsLoop (numberOfElements body)
    (lastStable body)
    (show sizeofViewChangeMsgHeader + (body.length - sigSize - sizeofViewChangeMsgHeader) ≤
      body.length by omega) (by omega) hshort
  rw [checkElements, hremaining, hloop, Option.map_some]
  cases found with
  | none => exact ⟨false, rfl, by simp⟩
  | some remaining =>
    obtain ⟨endLoc, hend, hlayout⟩ := hfound remaining rfl
    refine ⟨_, rfl, fun haccepted => ⟨endLoc, by omega, hlayout, ?_⟩⟩
    have hloc : (body.length : Int) - sigSize - remaining = endLoc := by omega
    dsimp only at haccepted
    rw [hloc] at haccepted
    split_ifs at haccepted ⊢ with hpos
    · exact of_decide_eq_true haccepted
    · exact of_decide_eq_true haccepted

/-! ## Long certificates -/

theorem header_le_dataLength (body : Bytes) : sizeofViewChangeMsgHeader ≤ dataLength body := by
  unfold dataLength
  split_ifs <;> omega

variable {cfg}

/-- The signed part and the signature of an accepted message lie in the message. -/
theorem of_accepted (h : ToActualMsgType cfg body = some true) :
    dataLength body + sigLen cfg body ≤ body.length ∧
      checkElements body (sigLen cfg body) = some true := by
  unfold ToActualMsgType at h
  split_ifs at h
  any_goals cases h
  obtain ⟨data, -, h⟩ := Option.bind_eq_some_iff.1 h
  obtain ⟨sig, hsig, h⟩ := Option.bind_eq_some_iff.1 h
  unfold readAt at hsig
  split_ifs at hsig h with hin
  · exact ⟨by omega, h⟩
  · cases h

instance ShortCertificates.decidable (body : Bytes) :
    ∀ n loc, Decidable (ShortCertificates body n loc)
  | 0, _ => .isTrue trivial
  | n + 1, loc =>
    have := ShortCertificates.decidable body n (loc + sizeAt body loc)
    inferInstanceAs (Decidable ((_ → _) ∧ _))

/-- The iterator goes over the elements of a list: each call returns the struct of the next element,
    which its certificate follows in the message, and behind the last one the iterator is at its end. -/
inductive Iterator.Walks (body : Bytes) : Iterator → List Element → Prop
  | nil {it : Iterator} (h : it.atEnd body = .ok true) : Walks body it []
  | cons {it it' : Iterator} {e : Element} {es : List Element}
      (hnext : it.getAndGoToNext body = .ok (some e.structBytes, it'))
      (hbytes : field body it.currLoc e.size = e.bytes) (hrest : Walks body it' es) :
      Walks body it (e :: es)

section RoundTrip

variable {front rest : Bytes} {es : List Element} {last : SeqNum}

section

variable (hfits : ∀ e ∈ es, e.Fits) (hbody : body = front ++ (es.flatMap (·.bytes) ++ rest))
include hfits hbody

theorem layout_flatMap (hstable : lastStable body + kWorkWindowSize < 2 ^ 63)
    (hcheck : ViewChangeMsg.checkElementsFrom (newView body) (lastStable body) last es = true) :
    Layout body es.length last front.length (front.length + sizeOfElements es) := by
  induction es generalizing front last with
  | nil => exact .nil
  | cons e es ih =>
    obtain ⟨hfirst, hrest⟩ := checkElementsFrom_cons.1 hcheck
    have hnext : body = (front ++ e.bytes) ++ (es.flatMap (·.bytes) ++ rest) := by simp [hbody]
    obtain ⟨-, hseq, hsize, hfine⟩ := at_append (hfits e mem_cons_self)
      (show body = front ++ (e.bytes ++ (es.flatMap (·.bytes) ++ rest)) by simp [hbody]) last
    rw [asInt64_of_fits (le_window body) hstable] at hfine
    have hloc : (front ++ e.bytes).length = front.length + e.size := by
      rw [length_append, e.length_bytes]
    have htail := ih (fun e' he' => hfits e' (mem_cons_of_mem e he')) hnext hrest
    rw [hloc, ← hsize, ← hseq, add_assoc] at htail
    rw [sizeOfElements_cons, ← hsize]
    refine .cons (hfine.2 hfirst) ?_ htail
    rw [hsize, ← hloc, hnext]
    simp

theorem walks_flatMap {it : Iterator} (h : it.InFrontOf body es.length last)
    (hloc : es ≠ [] → it.currLoc = front.length) : it.Walks body es := by
  induction es generalizing front last it with
  | nil => exact .nil h.atEnd_zero
  | cons e es ih =>
    have hfirst : body = front ++ (e.bytes ++ (es.flatMap (·.bytes) ++ rest)) := by simp [hbody]
    obtain ⟨hstruct, -, hsize, -⟩ := at_append (hfits e mem_cons_self) hfirst last
    have hcurr := hloc (by simp)
    have hnext : body = (front ++ e.bytes) ++ (es.flatMap (·.bytes) ++ rest) := by simp [hbody]
    have hyield := h.getAndGoToNext
    rw [hcurr, hstruct] at hyield
    refine .cons hyield ?_ ?_
    · rw [hcurr, hfirst]
      exact field_append _ _ _ rfl e.length_bytes
    · refine ih (fun e' he' => hfits e' (mem_cons_of_mem e he')) hnext h.next fun _ => ?_
      rw [length_append, e.length_bytes, ← hsize, ← hcurr]
      rfl

end

end RoundTrip

end ViewChangeBody

namespace ViewChangeMsg

open ViewChangeBody

/-- A message that is built from its elements can be finished, its receivers accept it, and the
    iterator returns the elements. -/
def RoundTrips (m : ViewChangeMsg) (signature : Bytes) : Prop :=
  ∃ b body, m.elements.foldlM (ViewChangeBuffer.addElement signature.length)
      { genReplicaId := m.genReplicaId, newView := m.newView, lastStable := m.lastStable } = .ok b ∧
    b.finalizeMessage signature = .ok body ∧
    ViewChangeBody.checkElements body signature.length = some true ∧
    ∃ it, Iterator.start body = .ok it ∧ it.Walks body m.elements

/-- **Round trip**: a message comes back as it was built if and only if its elements end below
    `2 ^ 15`. -/
theorem roundTrips_iff {m : ViewChangeMsg} {signature : Bytes} (hfits : m.Fits signature.length)
    (hlength : (m.elements.length : Int) ≤ kWorkWindowSize) (hsorted : SortedElements m.elements)
    (haccepted : ∀ e ∈ m.elements, e.Accepted m.newView m.lastStable) :
    m.RoundTrips signature ↔ sizeofViewChangeMsgHeader + sizeOfElements m.elements < 2 ^ 15 := by
  have hcheck : m.checkElements = true :=
    checkElementsFrom_complete hsorted (fun e he => (haccepted e he).above_stable) haccepted
  have hbuild := foldlM_addElement_buffer (m := { m with elements := [] }) (by simpa using hlength)
    (fun e he => ⟨(haccepted e he).above_stable, (haccepted e he).in_window⟩) hfits.size_le
  have hfinalize := finalizeMessage_buffer hfits
  simp only [hcheck, true_and] at hfinalize
  constructor
  · rintro ⟨b, body, hb, hbody, -⟩
    obtain rfl := Except.ok.inj (hb.symm.trans hbuild)
    by_contra hlong
    rw [if_neg hlong] at hfinalize
    exact absurd (hbody.symm.trans hfinalize) (by simp)
  · intro hshort
    rw [if_pos hshort] at hfinalize
    refine ⟨_, _, hbuild, hfinalize, (checkElements_finishedBytes hfits).2 ⟨hcheck, hshort⟩, ?_⟩
    obtain ⟨hview, hstable, hnumber, hlast⟩ := header_finishedBytes hfits
    have hlayout := layout_flatMap hfits.elements
      (show m.finishedBytes signature = m.buffer.headerBytes ++ _ from rfl)
      (by rw [hstable]; exact hfits.lastStable.2) (by rw [hview, hstable]; exact hcheck)
    rw [length_headerBytes, ← hnumber, ← hstable] at hlayout
    obtain ⟨it, hstart, hfront, -, hloc⟩ := start_of_layout (by omega) hlayout (by
      rw [hnumber, hlast, asInt16_of_lt (by omega), if_pos hshort, locationAfterLast]
      cases m.elements <;> simp)
    rw [hnumber] at hfront hloc
    refine ⟨it, hstart, walks_flatMap hfits.elements rfl hfront fun hne => ?_⟩
    rw [hloc (length_pos_iff.2 hne), length_headerBytes]

/-- A message of replica 1 for view 1 with two elements, the first one with a certificate of the given
    length. -/
def withCertificate (sigLength : ℕ) : ViewChangeMsg :=
  ⟨1, 1, 0, [⟨1, 5, 0, some ⟨0, List.replicate sigLength 7⟩⟩, ⟨3, 6, 0, none⟩]⟩

section WithCertificate

variable {n : ℕ} {signature : Bytes}

theorem size_withCertificate (n : ℕ) : sizeOfElements (withCertificate n).elements = 108 + n := by
  simp [withCertificate, sizeOfElements, Element.size, sizeofElement, sizeofPreparedCertificate]
  omega

theorem fits_withCertificate (h : n + signature.length ≤ 63000) :
    (withCertificate n).Fits signature.length := by
  refine ⟨by simp [withCertificate], by simp [withCertificate, kWorkWindowSize], ?_, ?_⟩
  · simp only [withCertificate, mem_cons, not_mem_nil, or_false, forall_eq_or_imp, forall_eq]
    refine ⟨⟨by simp, by simp, by simp, ?_⟩, ⟨by simp, by simp, by simp, by simp⟩⟩
    rintro c ⟨⟩
    rw [length_replicate]
    omega
  · rw [size_withCertificate]
    unfold sizeofViewChangeMsgHeader maxExternalMessageSize
    omega

theorem accepted_withCertificate (h : 0 < n) :
    ∀ e ∈ (withCertificate n).elements, e.Accepted 1 0 := by
  simp only [withCertificate, mem_cons, not_mem_nil, or_false, forall_eq_or_imp, forall_eq]
  refine ⟨⟨by simp, by simp [kWorkWindowSize], by simp, ?_, ?_⟩,
    ⟨by simp, by simp [kWorkWindowSize], by simp, by simp, by simp⟩⟩
  · rintro c ⟨⟩
    exact le_refl 0
  · simpa using h.ne'

/-- A long certificate passes the space assertion, but `finalizeMessage` finds its own message
    illegal. -/
theorem finalizeMessage_withCertificate (hpos : 0 < n) (h : n + signature.length ≤ 63000)
    (hlong : 2 ^ 15 ≤ 132 + n) :
    (withCertificate n).elements.foldlM (ViewChangeBuffer.addElement signature.length)
      { genReplicaId := 1, newView := 1, lastStable := 0 } = .ok (withCertificate n).buffer ∧
    (withCertificate n).buffer.finalizeMessage signature = .error .assertion := by
  have hfits := fits_withCertificate h
  constructor
  · exact foldlM_addElement_buffer (m := ⟨1, 1, 0, []⟩) (by simp [withCertificate, kWorkWindowSize])
      (fun e he => ⟨(accepted_withCertificate hpos e he).above_stable,
        (accepted_withCertificate hpos e he).in_window⟩) hfits.size_le
  · rw [finalizeMessage_buffer hfits, if_neg]
    rw [size_withCertificate, sizeofViewChangeMsgHeader]
    omega

end WithCertificate

theorem roundTrips_256 : (withCertificate 256).RoundTrips (List.replicate 256 0) := by
  refine (roundTrips_iff (fits_withCertificate ?_) ?_ (pairwise_pair.2 ?_)
    (accepted_withCertificate ?_)).2 ?_
  · norm_num
  · norm_num [withCertificate, kWorkWindowSize]
  · norm_num
  · norm_num
  · rw [size_withCertificate]
    decide

theorem not_roundTrips_33000 :
    (∀ e ∈ (withCertificate 33000).elements, e.Accepted 1 0) ∧
    (withCertificate 33000).elements.foldlM (ViewChangeBuffer.addElement 256)
      { genReplicaId := 1, newView := 1, lastStable := 0 } = .ok (withCertificate 33000).buffer ∧
    (withCertificate 33000).buffer.finalizeMessage (List.replicate 256 0) = .error .assertion := by
  have hfails := @finalizeMessage_withCertificate 33000 (replicate 256 0) (by norm_num)
    (by norm_num) (by norm_num)
  rw [length_replicate] at hfails
  exact ⟨accepted_withCertificate (by norm_num), hfails⟩

end ViewChangeMsg

end ConcordBft
