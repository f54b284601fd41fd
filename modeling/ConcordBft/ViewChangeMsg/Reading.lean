import ConcordBft.ViewChangeMsg.Parser

set_option autoImplicit false

/-! # The message that accepted bytes stand for

The rules of the view change are stated over lists of elements. Where the certificates of accepted
bytes are short, the iterator over the bytes goes through such a list, and the list passes the checks
that the bytes passed. -/

namespace ConcordBft.ViewChangeBody

open LittleEndian Checked List ViewChangeMsg

variable (body : Bytes)

/-! ## Elements -/

/-- The element at a location, with the certificate behind it. -/
def readElement (loc : ℕ) : Element where
  seqNum := seqNumAt body loc
  prePrepreDigest := BitVec.ofNat 256 (decode (field body (loc + 8) 32).reverse)
  originView := decodeInt (field body (loc + 40) 8)
  preparedCertificate :=
    if hasPreparedCertificateAt body loc then
      some ⟨decodeInt (field body (loc + 49) 8),
        field body (loc + 59) (certificateSigLengthAt body loc)⟩
    else none

/-- The elements that stand one after the other from a location on. -/
def readElements : ℕ → ℕ → List Element
  | 0, _ => []
  | n + 1, loc => readElement body loc :: readElements n (loc + sizeAt body loc)

/-- The message that the bytes stand for. -/
def message : ViewChangeMsg where
  genReplicaId := genReplicaId body
  newView := newView body
  lastStable := lastStable body
  elements := readElements body (numberOfElements body) sizeofViewChangeMsgHeader

variable {body}

/-- An element that is fine in the bytes is fine in the list. -/
theorem checks_readElement {last : SeqNum} {loc : ℕ} (h : FineAt body last loc)
    (hinside : loc + sizeAt body loc ≤ body.length) :
    last < (readElement body loc).seqNum ∧
      (readElement body loc).seqNum ≤ lastStable body + kWorkWindowSize ∧
      (readElement body loc).originView < newView body ∧
      checkCertificate (readElement body loc).originView (readElement body loc).preparedCertificate =
        true := by
  obtain ⟨hlast, hwindow, horigin, hcert⟩ := h
  refine ⟨hlast, le_trans hwindow (asInt64_le (le_window body)), horigin, ?_⟩
  by_cases hhas : hasPreparedCertificateAt body loc = true
  · obtain ⟨hview, hlength⟩ := hcert hhas
    have hsig : (field body (loc + 59) (certificateSigLengthAt body loc)).length =
        certificateSigLengthAt body loc := by
      rw [sizeAt, if_pos hhas] at hinside
      unfold sizeofElement sizeofPreparedCertificate at hinside
      exact length_field (by omega)
    simpa [readElement, hhas, checkCertificate, hview, ← length_eq_zero_iff, hsig] using hlength
  · simp [readElement, hhas, checkCertificate]

/-- **Elements that are laid out** in the bytes, read as a list, pass the checks on lists. -/
theorem Layout.checkElementsFrom {n : ℕ} {last : SeqNum} {loc endLoc : ℕ}
    (h : Layout body n last loc endLoc) :
    checkElementsFrom (newView body) (lastStable body) last (readElements body n loc) = true := by
  induction h with
  | nil => rfl
  | cons hfine hinside _ ih => exact checkElementsFrom_cons.2 ⟨checks_readElement hfine hinside, ih⟩

/-! ## The iterator -/

/-- The iterator goes through a list: as long as there are elements, the current one is read, and the
    next call leads to the rest. -/
inductive Iterator.Reads (body : Bytes) : Iterator → List Element → Prop
  | nil {it : Iterator} (hend : it.atEnd body = .ok true) : Reads body it []
  | cons {it it' : Iterator} {es : List Element} (hend : it.atEnd body = .ok false)
      (hcurrent : it.getCurrent body = .ok (some (field body it.currLoc sizeofElement)))
      (hnext : it.gotoNext body = .ok it') (hrest : Reads body it' es) :
      Reads body it (readElement body it.currLoc :: es)

/-- `goToAtLeast` skips the elements that the list iterator skips. -/
theorem Iterator.Reads.goToAtLeast {it : Iterator} {es : List Element} (h : it.Reads body es)
    (hcount : es.length ≤ numberOfElements body) (lowerBound : SeqNum) :
    ∃ it', it.goToAtLeast body lowerBound = .ok it' ∧
      it'.Reads body (ElementsIterator.goToAtLeast lowerBound es) := by
  unfold Iterator.goToAtLeast ElementsIterator.goToAtLeast
  generalize hfuel : numberOfElements body + 1 = fuel
  replace hcount : es.length < fuel := by omega
  clear hfuel
  induction h generalizing fuel with
  | @nil it hend =>
    obtain ⟨fuel, rfl⟩ := Nat.exists_eq_add_of_lt hcount
    refine ⟨it, ?_, .nil hend⟩
    rw [goToAtLeastLoop, getCurrent, hend]
    rfl
  | @cons it it' es hend hcurrent hnext hrest ih =>
    obtain ⟨fuel, rfl⟩ : ∃ k, fuel = k + 1 := ⟨fuel - 1, by omega⟩
    have hseq : decodeInt (field (field body it.currLoc sizeofElement) 0 8) =
        (readElement body it.currLoc).seqNum := by
      rw [field_field _ (by decide)]
      rfl
    rw [goToAtLeastLoop, hcurrent, ok_bind]
    dsimp only
    rw [hseq, dropWhile_cons]
    split_ifs with hlt hkept
    · obtain ⟨it₁, hloop, hreads⟩ := ih fuel (by simpa using hcount)
      exact ⟨it₁, by rw [hnext]; exact hloop, hreads⟩
    · exact absurd (decide_eq_true hlt) hkept
    · exact absurd (of_decide_eq_true ‹_›) hlt
    · exact ⟨it, rfl, .cons hend hcurrent hnext hrest⟩

theorem Iterator.InFrontOf.reads {n : ℕ} {last : SeqNum} {it : Iterator} {loc : ℕ}
    (h : it.InFrontOf body n last) (hloc : 0 < n → it.currLoc = loc) :
    it.Reads body (readElements body n loc) := by
  induction n generalizing last it loc with
  | zero => exact .nil h.atEnd_zero
  | succ n ih =>
    obtain rfl := hloc n.succ_pos
    refine .cons h.atEnd_succ h.getCurrent_succ ?_ (ih h.next fun _ => rfl)
    rw [gotoNext, h.getAndGoToNext]
    rfl

/-! ## Accepted messages -/

/-- The bytes passed `checkElements`, which receivers call for a message and its sender for its own;
    a signature of the given length is part of them. -/
structure Passed (sigLength : ℕ) (body : Bytes) : Prop where
  inside : sizeofViewChangeMsgHeader + sigLength ≤ body.length
  length_le : body.length ≤ maxExternalMessageSize
  checked : checkElements body sigLength = some true

instance Passed.decidable (sigLength : ℕ) (body : Bytes) : Decidable (Passed sigLength body) :=
  decidable_of_iff (_ ∧ _ ∧ _) ⟨fun h => ⟨h.1, h.2.1, h.2.2⟩, fun h => ⟨h.1, h.2, h.3⟩⟩

/-- What a receiver accepts has passed. -/
theorem passed_of_accepted {cfg : ParserConfig} (hsize : body.length ≤ maxExternalMessageSize)
    (h : ToActualMsgType cfg body = some true) : Passed (sigLen cfg body) body := by
  obtain ⟨hle, hchecked⟩ := of_accepted h
  have hheader := header_le_dataLength body
  exact ⟨by omega, hsize, hchecked⟩

/-- No certificate of the message is too long for an `int16_t`. -/
def AllShort (body : Bytes) : Prop :=
  ShortCertificates body (numberOfElements body) sizeofViewChangeMsgHeader

instance AllShort.decidable (body : Bytes) : Decidable (AllShort body) :=
  ShortCertificates.decidable body _ _

/-- The iterator of the message goes through its elements. -/
def Readable (body : Bytes) : Prop :=
  ∃ it, Iterator.start body = .ok it ∧ it.Reads body (message body).elements

/-- **Accepted bytes with short certificates** can be read, and stand for a message that passes the
    checks on lists. -/
theorem Passed.message {sigLength : ℕ} (h : Passed sigLength body) (hshort : AllShort body) :
    Readable body ∧ (message body).checkElements = true := by
  have hlength := h.length_le
  unfold maxExternalMessageSize at hlength
  obtain ⟨accepted, haccepted, hlayout⟩ := checkElements_of_short h.inside (by omega) hshort
  obtain rfl : accepted = true := Option.some.inj (haccepted.symm.trans h.checked)
  obtain ⟨endLoc, hlt, hlayout, hend⟩ := hlayout rfl
  obtain ⟨it, hstart, hfront, -, hcurr⟩ := start_of_layout hlt hlayout hend
  exact ⟨⟨it, hstart, hfront.reads hcurr⟩, hlayout.checkElementsFrom⟩

end ConcordBft.ViewChangeBody
