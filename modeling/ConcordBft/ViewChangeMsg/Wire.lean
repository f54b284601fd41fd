import ConcordBft.Lib.LittleEndian
import ConcordBft.Messages

set_option autoImplicit false

/-! # The bytes of a view change message (`ViewChangeMsg.cpp`)

A message is built in a buffer of `maxExternalMessageSize` bytes: `addElement` writes elements one
after the other behind the header, and `finalizeMessage` appends the signature and checks the result
with the function that every receiver calls. `checkElements` walks over the bytes with 16-bit counters,
some of them signed. The buffer of a message is the encoding of the list of its elements, and its bytes
are accepted if and only if the elements are fine and end below `2 ^ 15`. -/

namespace ConcordBft

open LittleEndian Element List

/-! ## Layout -/

/-- `MsgCode::ViewChange` -/
def VIEW_CHANGE_MSG_TYPE : ℕ := 114

/-- `sizeof(ViewChangeMsgHeader)` -/
def sizeofViewChangeMsgHeader : ℕ := 24

/-- `sizeof(Element)` -/
def sizeofElement : ℕ := 49

/-- `sizeof(PreparedCertificate)` -/
def sizeofPreparedCertificate : ℕ := 10

/-- A certificate in a message. -/
def PreparedCertificate.bytes (c : PreparedCertificate) : Bytes :=
  encodeInt 8 c.certificateView ++ (encode 2 c.certificateSig.length ++ c.certificateSig)

/-- The packed bytes of an element with the certificate that follows it. -/
def Element.bytes (e : Element) : Bytes :=
  encodeInt 8 e.seqNum ++ ((encode 32 e.prePrepreDigest.toNat).reverse ++ (encodeInt 8 e.originView ++
    ([if e.preparedCertificate.isSome then 1 else 0] ++
      (e.preparedCertificate.map (·.bytes)).getD [])))

/-! ## Building a message -/

/-- A message while it is built: the fields of its header, and the bytes that were written behind it. -/
structure ViewChangeBuffer where
  genReplicaId : ReplicaId
  newView : ViewNum
  lastStable : SeqNum
  numberOfElements : ℕ := 0
  locationAfterLast : ℕ := 0
  data : Bytes := []
deriving DecidableEq, Repr

namespace ViewChangeBuffer

/-- `addElement`; `mySigLength` bytes stay reserved for the signature. -/
def addElement (mySigLength : ℕ) (b : ViewChangeBuffer) (e : Element) :
    Except Failure ViewChangeBuffer := do
  Assert ((b.numberOfElements : Int) < kWorkWindowSize)
  Assert (0 < b.numberOfElements ∨ b.locationAfterLast = 0)
  Assert (b.lastStable < e.seqNum)
  Assert (e.seqNum ≤ b.lastStable + kWorkWindowSize)
  let location :=
    if b.locationAfterLast = 0 then sizeofViewChangeMsgHeader else b.locationAfterLast
  let certificateSize :=
    (e.preparedCertificate.map fun c => sizeofPreparedCertificate + c.certificateSig.length).getD 0
  let requiredSpace := asUInt16 (location + sizeofElement + certificateSize)
  Assert (requiredSpace + mySigLength ≤ maxExternalMessageSize)
  pure { b with
    data := b.data.take (location - sizeofViewChangeMsgHeader) ++ e.bytes
    locationAfterLast := requiredSpace
    numberOfElements := b.numberOfElements + 1 }

/-- The header of a message. -/
def headerBytes (b : ViewChangeBuffer) : Bytes :=
  encode 2 VIEW_CHANGE_MSG_TYPE ++ (encode 2 b.genReplicaId ++ (encodeInt 8 b.newView ++
    (encodeInt 8 b.lastStable ++ (encode 2 b.numberOfElements ++ encode 2 b.locationAfterLast))))

end ViewChangeBuffer

/-! ## Checking a message

The functions of a received message, over its bytes. -/

namespace ViewChangeBody

variable (body : Bytes)

/-- The view that the header has. -/
def newView : ViewNum := decodeInt (field body 4 8)

/-- The stable point that the header has. -/
def lastStable : SeqNum := decodeInt (field body 12 8)

def numberOfElements : ℕ := decode (field body 20 2)

def locationAfterLast : ℕ := decode (field body 22 2)

/-- The bytes at a location; `none` if some of them are outside of the message. -/
def readAt (location : Int) (width : ℕ) : Option Bytes :=
  if 0 ≤ location ∧ location + width ≤ body.length then some (field body location.toNat width)
  else none

/-- The loop of `checkElements` over the elements that are left: `none` if it reads outside of the
    message, `some none` if it finds the message illegal, and otherwise the remaining bytes. -/
def checkElementsLoop (body : Bytes) : ℕ → SeqNum → ℕ → Int → Option (Option ℕ)
  | 0, _, remainingBytes, _ => some (some remainingBytes)
  | left + 1, lastSeqNumInMsg, remainingBytes, currLoc =>
    if remainingBytes < sizeofElement then some none
    else
      (readAt body currLoc sizeofElement).bind fun element =>
      let seqNum := decodeInt (field element 0 8)
      let originView := decodeInt (field element 40 8)
      let remainingBytes := remainingBytes - sizeofElement
      let currLoc := currLoc + sizeofElement
      if seqNum ≤ lastSeqNumInMsg then some none
      else if asInt64 (lastStable body + kWorkWindowSize) < seqNum then some none
      else if newView body ≤ originView then some none
      else if decode (field element 48 1) = 0 then
        checkElementsLoop body left seqNum remainingBytes currLoc
      else if remainingBytes < sizeofPreparedCertificate then some none
      else
        (readAt body currLoc sizeofPreparedCertificate).bind fun certificate =>
        let certificateView := decodeInt (field certificate 0 8)
        let certificateSigLength := decode (field certificate 8 2)
        let s := asInt16 (sizeofPreparedCertificate + certificateSigLength)
        if originView < certificateView then some none
        else if certificateSigLength = 0 then some none
        else if remainingBytes < s then some none
        else checkElementsLoop body left seqNum (asUInt16 (remainingBytes - s)) (currLoc + s)

/-- `checkElements`; `none` if it reads outside of the message. -/
def checkElements (sigSize : ℕ) : Option Bool :=
  let remainingBytes := asUInt16 (body.length - sigSize - sizeofViewChangeMsgHeader)
  (checkElementsLoop body (numberOfElements body) (lastStable body) remainingBytes
    sizeofViewChangeMsgHeader).map fun
      | none => false
      | some remainingBytes =>
        if 0 < numberOfElements body then
          decide ((locationAfterLast body : Int) = asInt16 (body.length - sigSize - remainingBytes))
        else decide (locationAfterLast body = 0)

end ViewChangeBody

/-- `finalizeMessage`: the bytes that are sent. -/
def ViewChangeBuffer.finalizeMessage (b : ViewChangeBuffer) (signature : Bytes) :
    Except Failure Bytes := do
  let bodySize := if b.locationAfterLast = 0 then sizeofViewChangeMsgHeader else b.locationAfterLast
  Assert (bodySize + signature.length ≤ maxExternalMessageSize)
  let body := b.headerBytes ++ b.data.take (bodySize - sizeofViewChangeMsgHeader) ++ signature
  Assert (ViewChangeBody.checkElements body signature.length = some true)
  pure body

/-! ## The buffer of a message -/

/-- The numbers of an element fit in its fields. -/
structure Element.Fits (e : Element) : Prop where
  seqNum : -2 ^ 63 ≤ e.seqNum ∧ e.seqNum < 2 ^ 63
  originView : -2 ^ 63 ≤ e.originView ∧ e.originView < 2 ^ 63
  certificateView : ∀ c, e.preparedCertificate = some c →
    -2 ^ 63 ≤ c.certificateView ∧ c.certificateView < 2 ^ 63
  certificateSig : ∀ c, e.preparedCertificate = some c → c.certificateSig.length < 2 ^ 16

theorem decodeInt_encodeInt_eight {n : Int} (h : -2 ^ 63 ≤ n ∧ n < 2 ^ 63) :
    decodeInt (encodeInt 8 n) = n :=
  decodeInt_encodeInt (by omega) (by omega)

/-- The bytes that an element needs. -/
def Element.size (e : Element) : ℕ :=
  sizeofElement +
    (e.preparedCertificate.map fun c => sizeofPreparedCertificate + c.certificateSig.length).getD 0

theorem PreparedCertificate.length_bytes (c : PreparedCertificate) :
    c.bytes.length = sizeofPreparedCertificate + c.certificateSig.length := by
  simp only [PreparedCertificate.bytes, length_append, length_encodeInt, length_encode,
    sizeofPreparedCertificate]
  omega

theorem Element.length_bytes (e : Element) : e.bytes.length = e.size := by
  have hcert : ((e.preparedCertificate.map (·.bytes)).getD []).length =
      (e.preparedCertificate.map fun c =>
        sizeofPreparedCertificate + c.certificateSig.length).getD 0 := by
    cases e.preparedCertificate with
    | none => rfl
    | some c => exact c.length_bytes
  simp only [bytes, size, length_append, length_reverse, length_encodeInt,
    length_encode, length_singleton, sizeofElement]
  omega

/-- The bytes that some elements need. -/
def sizeOfElements (es : List Element) : ℕ := (es.map (·.size)).sum

theorem length_flatMap_bytes (es : List Element) :
    (es.flatMap (·.bytes)).length = sizeOfElements es := by
  simp [sizeOfElements, length_bytes]

namespace ViewChangeMsg

/-- The location after the last element; a message without elements has none. -/
def locationAfterLast (m : ViewChangeMsg) : ℕ :=
  if m.elements = [] then 0 else sizeofViewChangeMsgHeader + sizeOfElements m.elements

/-- The buffer in which the elements of a message were written. -/
def buffer (m : ViewChangeMsg) : ViewChangeBuffer where
  genReplicaId := m.genReplicaId
  newView := m.newView
  lastStable := m.lastStable
  numberOfElements := m.elements.length
  locationAfterLast := m.locationAfterLast
  data := m.elements.flatMap (·.bytes)

theorem sizeOfElements_concat (es : List Element) (e : Element) :
    sizeOfElements (es ++ [e]) = sizeOfElements es + e.size := by
  simp [sizeOfElements]

theorem bodySize_buffer (m : ViewChangeMsg) :
    (if m.buffer.locationAfterLast = 0 then sizeofViewChangeMsgHeader
      else m.buffer.locationAfterLast) = sizeofViewChangeMsgHeader + sizeOfElements m.elements := by
  cases hes : m.elements <;>
    simp [buffer, locationAfterLast, hes, sizeOfElements]

theorem take_data_buffer (m : ViewChangeMsg) :
    m.buffer.data.take (sizeofViewChangeMsgHeader + sizeOfElements m.elements -
      sizeofViewChangeMsgHeader) = m.elements.flatMap (·.bytes) := by
  rw [Nat.add_sub_cancel_left, ← length_flatMap_bytes]
  exact take_length

/-- **Adding an element** to the buffer, as long as it fits. -/
theorem addElement_buffer {m : ViewChangeMsg} {e : Element} {mySigLength : ℕ}
    (hlength : (m.elements.length : Int) < kWorkWindowSize)
    (hwindow : m.lastStable < e.seqNum ∧ e.seqNum ≤ m.lastStable + kWorkWindowSize)
    (hfits : sizeofViewChangeMsgHeader + sizeOfElements (m.elements ++ [e]) + mySigLength ≤
      maxExternalMessageSize) :
    m.buffer.addElement mySigLength e = .ok (buffer { m with elements := m.elements ++ [e] }) := by
  rw [sizeOfElements_concat] at hfits
  have hlength : (m.buffer.numberOfElements : Int) < kWorkWindowSize := hlength
  have habove : m.buffer.lastStable < e.seqNum := hwindow.1
  have hwithin : e.seqNum ≤ m.buffer.lastStable + kWorkWindowSize := hwindow.2
  have hstarted : 0 < m.buffer.numberOfElements ∨ m.buffer.locationAfterLast = 0 := by
    cases hes : m.elements <;> simp [buffer, locationAfterLast, hes]
  have hspace : asUInt16 ((sizeofViewChangeMsgHeader + sizeOfElements m.elements : ℕ) + sizeofElement +
      ((e.preparedCertificate.map fun c =>
        sizeofPreparedCertificate + c.certificateSig.length).getD 0 : ℕ)) =
      sizeofViewChangeMsgHeader + (sizeOfElements m.elements + e.size) := by
    unfold size maxExternalMessageSize at *
    unfold asUInt16
    omega
  unfold ViewChangeBuffer.addElement
  rw [assert_bind_of hlength, assert_bind_of hstarted, assert_bind_of habove, assert_bind_of hwithin]
  dsimp only
  rw [bodySize_buffer, hspace, assert_bind_of (by omega), take_data_buffer]
  simp [buffer, locationAfterLast, sizeOfElements_concat, pure, Except.pure]

/-- **Writing elements** to the buffer one after the other. -/
theorem foldlM_addElement_buffer {m : ViewChangeMsg} {es : List Element} {mySigLength : ℕ}
    (hlength : (m.elements.length + es.length : Int) ≤ kWorkWindowSize)
    (hwindow : ∀ e ∈ es, m.lastStable < e.seqNum ∧ e.seqNum ≤ m.lastStable + kWorkWindowSize)
    (hfits : sizeofViewChangeMsgHeader + sizeOfElements (m.elements ++ es) + mySigLength ≤
      maxExternalMessageSize) :
    es.foldlM (ViewChangeBuffer.addElement mySigLength) m.buffer =
      .ok (buffer { m with elements := m.elements ++ es }) := by
  induction es generalizing m with
  | nil => simp [pure, Except.pure]
  | cons e es ih =>
    rw [append_cons] at hfits ⊢
    rw [length_cons] at hlength
    have hfirst : sizeOfElements (m.elements ++ [e]) ≤ sizeOfElements (m.elements ++ [e] ++ es) := by
      simp [sizeOfElements]
    rw [foldlM_cons, addElement_buffer (by lia) (hwindow e mem_cons_self) (by omega)]
    apply ih
    · rw [length_append, length_singleton]
      lia
    · exact fun e' he' => hwindow e' (mem_cons_of_mem e he')
    · exact hfits

end ViewChangeMsg

/-! ## Reading what was written -/

/-- The bytes of the struct `Element`. -/
def Element.structBytes (e : Element) : Bytes :=
  encodeInt 8 e.seqNum ++ ((encode 32 e.prePrepreDigest.toNat).reverse ++ (encodeInt 8 e.originView ++
    [if e.preparedCertificate.isSome then 1 else 0]))

theorem Element.bytes_eq (e : Element) :
    e.bytes = e.structBytes ++ (e.preparedCertificate.map (·.bytes)).getD [] := by
  simp [bytes, structBytes]

theorem Element.length_structBytes (e : Element) : e.structBytes.length = sizeofElement := by
  simp [structBytes, sizeofElement]

namespace ViewChangeBody

theorem readAt_of_le {body : Bytes} {loc width : ℕ} (h : loc + width ≤ body.length) :
    readAt body loc width = some (field body loc width) := by
  rw [readAt, if_pos (by omega), Int.toNat_natCast]

theorem asInt16_of_lt {n : ℕ} (h : n < 2 ^ 16) :
    asInt16 n = if n < 2 ^ 15 then (n : Int) else n - 2 ^ 16 := by
  unfold asInt16 Int.bmod
  dsimp only
  split_ifs <;> omega

theorem asInt16_lt (n : Int) : asInt16 n < 2 ^ 15 := by
  unfold asInt16 Int.bmod
  dsimp only
  split_ifs <;> omega

/-! ## The elements in the bytes -/

variable (body : Bytes)

def hasPreparedCertificateAt (loc : ℕ) : Bool := decode (field body (loc + 48) 1) ≠ 0

/-- The number of the element at `loc`. -/
def seqNumAt (loc : ℕ) : SeqNum := decodeInt (field body loc 8)

/-- The length of the signature at `loc`. -/
def certificateSigLengthAt (loc : ℕ) : ℕ := decode (field body (loc + 57) 2)

/-- The size of the element at a location, with its certificate. -/
def sizeAt (loc : ℕ) : ℕ :=
  if hasPreparedCertificateAt body loc then
    sizeofElement + sizeofPreparedCertificate + certificateSigLengthAt body loc
  else sizeofElement

theorem sizeofElement_le_sizeAt (body : Bytes) (loc : ℕ) : sizeofElement ≤ sizeAt body loc := by
  unfold sizeAt
  split_ifs <;> omega

/-- What `checkElements` asks of the element at a location. -/
def FineAt (last : SeqNum) (loc : ℕ) : Prop :=
  last < seqNumAt body loc ∧ seqNumAt body loc ≤ asInt64 (lastStable body + kWorkWindowSize) ∧
  decodeInt (field body (loc + 40) 8) < newView body ∧
  (hasPreparedCertificateAt body loc = true →
    decodeInt (field body (loc + 49) 8) ≤ decodeInt (field body (loc + 40) 8) ∧
    certificateSigLengthAt body loc ≠ 0)

instance FineAt.decidable (body : Bytes) (last : SeqNum) (loc : ℕ) :
    Decidable (FineAt body last loc) :=
  inferInstanceAs (Decidable (_ ∧ _ ∧ _ ∧ (_ → _)))

/-- The stable point is a 64-bit number. -/
theorem le_window (body : Bytes) : -2 ^ 63 ≤ lastStable body + kWorkWindowSize := by
  have hle := le_decodeInt (length_field_le body 12 8)
  unfold lastStable kWorkWindowSize
  lia

/-- **One round of the loop**, for an element whose certificate is not too long. -/
theorem checkElementsLoop_succ {body : Bytes} {remainingBytes loc : ℕ}
    (hin : loc + remainingBytes ≤ body.length) (hlt : remainingBytes < 2 ^ 16)
    (hcert : hasPreparedCertificateAt body loc = true →
      sizeofPreparedCertificate + certificateSigLengthAt body loc < 2 ^ 15)
    (left : ℕ) (last : SeqNum) :
    checkElementsLoop body (left + 1) last remainingBytes loc =
      if sizeAt body loc ≤ remainingBytes ∧ FineAt body last loc then
        checkElementsLoop body left (seqNumAt body loc) (remainingBytes - sizeAt body loc)
          ((loc + sizeAt body loc : ℕ) : Int)
      else some none := by
  have hsize := sizeofElement_le_sizeAt body loc
  rw [checkElementsLoop]
  by_cases hshort : remainingBytes < sizeofElement
  · rw [if_pos hshort, if_neg (by omega)]
  rw [if_neg hshort, readAt_of_le (by omega), Option.bind_some]
  dsimp only
  rw [field_field _ (by decide), field_field _ (by decide), field_field _ (by decide), add_zero]
  change (if seqNumAt body loc ≤ last then _ else if _ < seqNumAt body loc then _ else _) = _
  by_cases hhas : hasPreparedCertificateAt body loc = true
  · have hflag : ¬ decode (field body (loc + 48) 1) = 0 := by
      simpa [hasPreparedCertificateAt] using hhas
    have hat : sizeAt body loc = sizeofElement + sizeofPreparedCertificate +
        certificateSigLengthAt body loc := by simp [sizeAt, hhas]
    have hs : asInt16 (sizeofPreparedCertificate + certificateSigLengthAt body loc) =
        (sizeofPreparedCertificate + certificateSigLengthAt body loc : ℕ) := by
      rw [← Nat.cast_add, asInt16_of_lt (by have := hcert hhas; omega), if_pos (hcert hhas)]
    by_cases hroom : remainingBytes - sizeofElement < sizeofPreparedCertificate
    · rw [if_pos hroom, if_neg (c := sizeAt body loc ≤ remainingBytes ∧ _) (by omega)]
      split_ifs <;> rfl
    have hread : readAt body ((loc : Int) + (sizeofElement : ℕ)) sizeofPreparedCertificate =
        some (field body (loc + sizeofElement) sizeofPreparedCertificate) :=
      readAt_of_le (by omega)
    have hlength : decode (field body (loc + sizeofElement + 8) 2) = certificateSigLengthAt body loc :=
      rfl
    have hview : decodeInt (field body (loc + sizeofElement) 8) = decodeInt (field body (loc + 49) 8) :=
      rfl
    rw [hread, Option.bind_some, field_field _ (by decide), field_field _ (by decide),
      hlength, hs]
    simp only [FineAt, hhas]
    have hcount : sizeAt body loc ≤ remainingBytes →
        asUInt16 ((remainingBytes - sizeofElement : ℕ) -
          ((sizeofPreparedCertificate + certificateSigLengthAt body loc : ℕ) : Int)) =
        remainingBytes - sizeAt body loc := by
      unfold asUInt16
      omega
    have hloc : (loc : Int) + (sizeofElement : ℕ) +
        ((sizeofPreparedCertificate + certificateSigLengthAt body loc : ℕ) : Int) =
        ((loc + sizeAt body loc : ℕ) : Int) := by omega
    rw [hloc]
    split_ifs
    any_goals first | rfl | lia
    rw [hcount (by omega)]
    rfl
  · have hflag : decode (field body (loc + 48) 1) = 0 := by
      simpa [hasPreparedCertificateAt] using hhas
    have hat : sizeAt body loc = sizeofElement := by simp [sizeAt, hhas]
    rw [hat]
    simp only [FineAt, hhas]
    split_ifs <;> first | rfl | lia

open ViewChangeMsg

/-- **An element that was written** is found at its location. -/
theorem at_append {body front rest : Bytes} {e : Element} (hfits : e.Fits)
    (hbody : body = front ++ (e.bytes ++ rest)) (last : SeqNum) :
    field body front.length sizeofElement = e.structBytes ∧
      seqNumAt body front.length = e.seqNum ∧ sizeAt body front.length = e.size ∧
      (FineAt body last front.length ↔ last < e.seqNum ∧
        e.seqNum ≤ asInt64 (lastStable body + kWorkWindowSize) ∧ e.originView < newView body ∧
        checkCertificate e.originView e.preparedCertificate = true) := by
  have hseq : seqNumAt body front.length = e.seqNum := by
    simp [seqNumAt, hbody, bytes, decodeInt_encodeInt_eight hfits.seqNum]
  have horigin : decodeInt (field body (front.length + 40) 8) = e.originView := by
    simp [hbody, bytes, decodeInt_encodeInt_eight hfits.originView]
  have hflag : hasPreparedCertificateAt body front.length = e.preparedCertificate.isSome := by
    cases hc : e.preparedCertificate <;>
      simp [hasPreparedCertificateAt, hbody, bytes, hc, decode]
  refine ⟨?_, hseq, ?_⟩
  · rw [hbody, e.bytes_eq, append_assoc]
    exact field_append front _ _ rfl e.length_structBytes
  unfold FineAt sizeAt
  rw [hseq, horigin, hflag]
  cases hc : e.preparedCertificate with
  | none => simp [size, hc, checkCertificate]
  | some c =>
    have hview : decodeInt (field body (front.length + 49) 8) = c.certificateView := by
      simp [hbody, bytes, hc, PreparedCertificate.bytes,
        decodeInt_encodeInt_eight (hfits.certificateView c hc)]
    have hlength : certificateSigLengthAt body front.length = c.certificateSig.length := by
      simp [certificateSigLengthAt, hbody, bytes, hc, PreparedCertificate.bytes,
        decode_encode_of_lt (show _ < 256 ^ 2 from hfits.certificateSig c hc)]
    simp [size, hc, checkCertificate, hview, hlength, add_assoc]

/-! ## What is accepted -/

theorem checkElementsFrom_cons {newView : ViewNum} {lastStable last : SeqNum} {e : Element}
    {es : List Element} :
    checkElementsFrom newView lastStable last (e :: es) = true ↔
      (last < e.seqNum ∧ e.seqNum ≤ lastStable + kWorkWindowSize ∧ e.originView < newView ∧
          checkCertificate e.originView e.preparedCertificate = true) ∧
        checkElementsFrom newView lastStable e.seqNum es = true := by
  simp [checkElementsFrom, and_assoc]

theorem sizeOfElements_cons (e : Element) (es : List Element) :
    sizeOfElements (e :: es) = e.size + sizeOfElements es := by
  simp [sizeOfElements]

/-- **The loop over the elements of a list**, if they end below `2 ^ 15`. -/
theorem checkElementsLoop_flatMap {body front rest : Bytes} {es : List Element}
    (hfits : ∀ e ∈ es, e.Fits) (hbody : body = front ++ (es.flatMap (·.bytes) ++ rest))
    (hshort : sizeOfElements es < 2 ^ 15)
    (hstable : lastStable body + kWorkWindowSize < 2 ^ 63) (last : SeqNum) :
    checkElementsLoop body es.length last (sizeOfElements es) front.length =
      if checkElementsFrom (newView body) (lastStable body) last es = true then
        some (some 0)
      else some none := by
  induction es generalizing front last with
  | nil => simp [checkElementsLoop, sizeOfElements, checkElementsFrom]
  | cons e es ih =>
    rw [sizeOfElements_cons] at hshort ⊢
    have hnext : body = (front ++ e.bytes) ++ (es.flatMap (·.bytes) ++ rest) := by simp [hbody]
    obtain ⟨-, hseq, hsize, hfine⟩ := at_append (hfits e mem_cons_self)
      (show body = front ++ (e.bytes ++ (es.flatMap (·.bytes) ++ rest)) by simp [hbody]) last
    have hlength : front.length + (e.size + sizeOfElements es) ≤ body.length := by
      rw [hnext, length_append, length_append, length_append, e.length_bytes, length_flatMap_bytes]
      omega
    have hcert : hasPreparedCertificateAt body front.length = true →
        sizeofPreparedCertificate + certificateSigLengthAt body front.length < 2 ^ 15 := by
      intro hhas
      rw [sizeAt, if_pos hhas] at hsize
      omega
    have hloc : front.length + e.size = (front ++ e.bytes).length := by
      rw [length_append, e.length_bytes]
    rw [length_cons, checkElementsLoop_succ hlength (by omega) hcert, hsize, hseq,
      Nat.add_sub_cancel_left, hloc, ih (fun e' he' => hfits e' (mem_cons_of_mem e he')) hnext
      (by omega), ← ite_and]
    refine if_congr ?_ rfl rfl
    rw [checkElementsFrom_cons, hfine, asInt64_of_fits (le_window body) hstable,
      and_iff_right (Nat.le_add_right _ _)]

/-! ## The header -/

variable {b : ViewChangeBuffer} (tail : Bytes)

theorem newView_headerBytes (h : -2 ^ 63 ≤ b.newView ∧ b.newView < 2 ^ 63) :
    newView (b.headerBytes ++ tail) = b.newView := by
  simp [newView, ViewChangeBuffer.headerBytes, decodeInt_encodeInt_eight h]

theorem lastStable_headerBytes (h : -2 ^ 63 ≤ b.lastStable ∧ b.lastStable < 2 ^ 63) :
    lastStable (b.headerBytes ++ tail) = b.lastStable := by
  simp [lastStable, ViewChangeBuffer.headerBytes, decodeInt_encodeInt_eight h]

theorem numberOfElements_headerBytes (h : b.numberOfElements < 256 ^ 2) :
    numberOfElements (b.headerBytes ++ tail) = b.numberOfElements := by
  simp [numberOfElements, ViewChangeBuffer.headerBytes, decode_encode_of_lt h]

theorem locationAfterLast_headerBytes (h : b.locationAfterLast < 256 ^ 2) :
    locationAfterLast (b.headerBytes ++ tail) = b.locationAfterLast := by
  simp [locationAfterLast, ViewChangeBuffer.headerBytes, decode_encode_of_lt h]

theorem length_headerBytes (b : ViewChangeBuffer) :
    b.headerBytes.length = sizeofViewChangeMsgHeader := by
  simp [ViewChangeBuffer.headerBytes, sizeofViewChangeMsgHeader]

end ViewChangeBody

/-! ## Accepted messages -/

namespace ViewChangeMsg

/-- The numbers of a message and its window fit in 64 bits, and the message with its signature in the
    buffer. -/
structure Fits (m : ViewChangeMsg) (sigLength : ℕ) : Prop where
  newView : -2 ^ 63 ≤ m.newView ∧ m.newView < 2 ^ 63
  lastStable : -2 ^ 63 ≤ m.lastStable ∧ m.lastStable + kWorkWindowSize < 2 ^ 63
  elements : ∀ e ∈ m.elements, e.Fits
  size_le : sizeofViewChangeMsgHeader + sizeOfElements m.elements + sigLength ≤ maxExternalMessageSize

theorem length_le_sizeOfElements (es : List Element) : es.length ≤ sizeOfElements es := by
  induction es with
  | nil => simp
  | cons e es ih =>
    have hsize : sizeofElement ≤ e.size := Nat.le_add_right _ _
    rw [ViewChangeBody.sizeOfElements_cons, length_cons]
    unfold sizeofElement at hsize
    omega

/-- The bytes of a finished message. -/
def finishedBytes (m : ViewChangeMsg) (signature : Bytes) : Bytes :=
  m.buffer.headerBytes ++ (m.elements.flatMap (·.bytes) ++ signature)

variable {signature : Bytes}

theorem header_finishedBytes {m : ViewChangeMsg} (h : m.Fits signature.length) :
    ViewChangeBody.newView (m.finishedBytes signature) = m.newView ∧
      ViewChangeBody.lastStable (m.finishedBytes signature) = m.lastStable ∧
      ViewChangeBody.numberOfElements (m.finishedBytes signature) = m.elements.length ∧
      ViewChangeBody.locationAfterLast (m.finishedBytes signature) = m.locationAfterLast := by
  have hsize := h.size_le
  have hcount := length_le_sizeOfElements m.elements
  have hlocation : m.locationAfterLast < 256 ^ 2 := by
    unfold locationAfterLast maxExternalMessageSize at *
    split_ifs <;> omega
  have hnumber : m.elements.length < 256 ^ 2 := by
    unfold maxExternalMessageSize at hsize
    omega
  have hstable : m.lastStable < 2 ^ 63 := by
    have hwindow := h.lastStable.2
    unfold kWorkWindowSize at hwindow
    lia
  exact ⟨ViewChangeBody.newView_headerBytes _ h.newView,
    ViewChangeBody.lastStable_headerBytes _ ⟨h.lastStable.1, hstable⟩,
    ViewChangeBody.numberOfElements_headerBytes _ hnumber,
    ViewChangeBody.locationAfterLast_headerBytes _ hlocation⟩

/-- **Receivers accept a message** if and only if its elements are fine and end below `2 ^ 15`. -/
theorem checkElements_finishedBytes {m : ViewChangeMsg} (h : m.Fits signature.length) :
    ViewChangeBody.checkElements (m.finishedBytes signature) signature.length = some true ↔
      m.checkElements = true ∧ sizeofViewChangeMsgHeader + sizeOfElements m.elements < 2 ^ 15 := by
  have hsize := h.size_le
  unfold maxExternalMessageSize at hsize
  obtain ⟨hview, hstable, hnumber, hlast⟩ := header_finishedBytes h
  have hwindow := h.lastStable.2
  rw [← hstable] at hwindow
  obtain ⟨body, hbody⟩ : ∃ body, body = m.finishedBytes signature := ⟨_, rfl⟩
  rw [← hbody] at hview hstable hnumber hlast hwindow
  have hlength : body.length =
      sizeofViewChangeMsgHeader + sizeOfElements m.elements + signature.length := by
    rw [hbody, finishedBytes, length_append, length_append, length_flatMap_bytes,
      ViewChangeBody.length_headerBytes, add_assoc]
  have hremaining : asUInt16 (body.length - signature.length - sizeofViewChangeMsgHeader) =
      sizeOfElements m.elements := by
    unfold asUInt16
    omega
  have hfront : ((sizeofViewChangeMsgHeader : ℕ) : Int) = (m.buffer.headerBytes.length : ℕ) := by
    rw [ViewChangeBody.length_headerBytes]
  rw [← hbody, ViewChangeBody.checkElements, hremaining, hnumber, hlast, hfront]
  constructor
  · intro haccepted
    obtain ⟨found, hloop, hfound⟩ := Option.map_eq_some_iff.1 haccepted
    -- the location of the header is compared with an `int16_t`
    have hlt : sizeofViewChangeMsgHeader + sizeOfElements m.elements < 2 ^ 15 := by
      cases found with
      | none => cases hfound
      | some remaining =>
        have hint := ViewChangeBody.asInt16_lt (body.length - signature.length - remaining)
        unfold locationAfterLast at hfound
        cases hes : m.elements with
        | nil => simp [sizeOfElements, sizeofViewChangeMsgHeader]
        | cons e es =>
          simp only [hes, length_cons, Nat.zero_lt_succ, if_true, reduceCtorEq, if_false,
            decide_eq_true_eq] at hfound
          omega
    rw [ViewChangeBody.checkElementsLoop_flatMap h.elements hbody (by omega) hwindow, hview, hstable]
      at hloop
    split_ifs at hloop with hcheck
    · exact ⟨hcheck, hlt⟩
    · cases hloop
      cases hfound
  · intro ⟨hcheck, hlt⟩
    have hend : (body.length : Int) - signature.length - (0 : ℕ) =
        (sizeofViewChangeMsgHeader + sizeOfElements m.elements : ℕ) := by omega
    rw [checkElements] at hcheck
    rw [ViewChangeBody.checkElementsLoop_flatMap h.elements hbody (by omega) hwindow, hview, hstable,
      if_pos hcheck, Option.map_some]
    dsimp only
    rw [hend, ViewChangeBody.asInt16_of_lt (by omega), if_pos hlt, locationAfterLast]
    cases m.elements <;> simp

/-- `finalizeMessage` returns the finished bytes, or fails where receivers would not accept them. -/
theorem finalizeMessage_buffer {m : ViewChangeMsg} (h : m.Fits signature.length) :
    m.buffer.finalizeMessage signature =
      if m.checkElements = true ∧ sizeofViewChangeMsgHeader + sizeOfElements m.elements < 2 ^ 15 then
        .ok (m.finishedBytes signature)
      else .error .assertion := by
  have hsize := h.size_le
  have hbytes : m.buffer.headerBytes ++ m.buffer.data.take (sizeofViewChangeMsgHeader +
      sizeOfElements m.elements - sizeofViewChangeMsgHeader) ++ signature =
        m.finishedBytes signature := by
    rw [take_data_buffer, finishedBytes, append_assoc]
  rw [ViewChangeBuffer.finalizeMessage]
  dsimp only
  rw [bodySize_buffer, assert_bind_of hsize, hbytes, Assert, Checked.require,
    if_congr (checkElements_finishedBytes h) rfl rfl]
  split_ifs <;> rfl

end ViewChangeMsg

end ConcordBft
