import ConcordBft.Failure

set_option autoImplicit false

/-! # View change messages (`ViewChangeMsg.cpp`)

A `ViewChangeMsg` reports, for sequence numbers of the sender's window, which PrePrepare the sender
held in its last view and, where it has one, a certificate that the PrePrepare was prepared. The
certificate is threshold-signed bytes that nobody verifies before `computeRestrictions` does, so an
accepted message may carry any bytes there.

The model keeps the elements as the list that the message body encodes. -/

namespace ConcordBft

/-- A prepare signature, with its view. -/
structure PreparedCertificate where
  certificateView : ViewNum
  certificateSig : Bytes
deriving DecidableEq, Repr

/-- `hasPreparedCertificate` is `preparedCertificate.isSome`. -/
structure Element where
  seqNum : SeqNum
  prePrepreDigest : Digest
  originView : ViewNum
  preparedCertificate : Option PreparedCertificate
deriving DecidableEq, Repr

/-- What a replica reports when it leaves a view. -/
structure ViewChangeMsg where
  genReplicaId : ReplicaId
  newView : ViewNum
  lastStable : SeqNum
  elements : List Element
deriving DecidableEq, Repr

namespace ViewChangeMsg

/-- The checks of `checkElements` on the certificate of one element. -/
def checkCertificate (originView : ViewNum) : Option PreparedCertificate → Bool
  | none => true
  | some cert => cert.certificateView ≤ originView && cert.certificateSig.length != 0

/-- The loop of `checkElements`: the elements are sorted by sequence number, lie in the window above
    the sender's stable point and come from views before the new one. -/
def checkElementsFrom (newView : ViewNum) (lastStable : SeqNum) :
    SeqNum → List Element → Bool
  | _, [] => true
  | lastSeqNumInMsg, e :: rest =>
    lastSeqNumInMsg < e.seqNum && e.seqNum ≤ lastStable + kWorkWindowSize &&
      e.originView < newView && checkCertificate e.originView e.preparedCertificate &&
      checkElementsFrom newView lastStable e.seqNum rest

def checkElements (m : ViewChangeMsg) : Bool :=
  checkElementsFrom m.newView m.lastStable m.lastStable m.elements

/-- The message for a later view. -/
def setNewViewNumber (m : ViewChangeMsg) (newView : ViewNum) : Except Failure ViewChangeMsg := do
  Assert (m.newView ≤ newView)
  pure { m with newView := newView }

/-- `addElement`; a certificate is passed as a whole. -/
def addElement (m : ViewChangeMsg) (e : Element) : Except Failure ViewChangeMsg := do
  Assert ((m.elements.length : Int) < kWorkWindowSize)
  Assert (m.lastStable < e.seqNum)
  Assert (e.seqNum ≤ m.lastStable + kWorkWindowSize)
  pure { m with elements := m.elements ++ [e] }

end ViewChangeMsg

/-! ## Iterating over the elements -/

/-- An iterator is the list of the elements from the current one on. -/
abbrev ElementsIterator := List Element

namespace ElementsIterator

/-- Whether all elements were seen. -/
def atEnd (it : ElementsIterator) : Bool := it.isEmpty

/-- The next element. -/
def getCurrent (it : ElementsIterator) : Option Element := it.head?

/-- Goes behind the next element. -/
def gotoNext (it : ElementsIterator) : ElementsIterator := it.tail

/-- Skips the elements below a number. -/
def goToAtLeast (lowerBound : SeqNum) (it : ElementsIterator) : ElementsIterator :=
  it.dropWhile fun e => e.seqNum < lowerBound

end ElementsIterator

/-- The element of a message for sequence number `s`. -/
def elementAt (s : SeqNum) (it : ElementsIterator) : Option Element :=
  it.find? fun e => e.seqNum == s

/-- Elements in the order of their sequence numbers, no number twice. -/
def SortedElements (it : ElementsIterator) : Prop :=
  it.Pairwise fun e e' => e.seqNum < e'.seqNum

/-! ## What an accepted message contains -/

/-- What `checkElements` ensures about each element. -/
structure Element.Accepted (newView : ViewNum) (lastStable : SeqNum) (e : Element) : Prop where
  above_stable : lastStable < e.seqNum
  in_window : e.seqNum ≤ lastStable + kWorkWindowSize
  originView_lt : e.originView < newView
  cert_le : ∀ c, e.preparedCertificate = some c → c.certificateView ≤ e.originView
  cert_sig : ∀ c, e.preparedCertificate = some c → c.certificateSig ≠ []

theorem checkElementsFrom_sound {newView : ViewNum} {lastStable last : SeqNum} {es : List Element}
    (h : ViewChangeMsg.checkElementsFrom newView lastStable last es = true)
    (hlast : lastStable ≤ last) :
    SortedElements es ∧ (∀ e ∈ es, last < e.seqNum) ∧
      ∀ e ∈ es, e.Accepted newView lastStable := by
  induction es generalizing last with
  | nil => simp [SortedElements]
  | cons e rest ih =>
    simp only [ViewChangeMsg.checkElementsFrom, Bool.and_eq_true, decide_eq_true_eq] at h
    obtain ⟨⟨⟨⟨hlt, hwin⟩, hview⟩, hcert⟩, hrest⟩ := h
    obtain ⟨hsorted, hall, hacc⟩ := ih hrest (by lia)
    have he : e.Accepted newView lastStable := by
      refine ⟨by lia, hwin, hview, fun c hc => ?_, fun c hc => ?_⟩
      · rw [hc] at hcert
        simp only [ViewChangeMsg.checkCertificate, Bool.and_eq_true, decide_eq_true_eq] at hcert
        exact hcert.1
      · rw [hc] at hcert
        simp only [ViewChangeMsg.checkCertificate, Bool.and_eq_true, bne_iff_ne, ne_eq,
          List.length_eq_zero_iff] at hcert
        exact hcert.2
    refine ⟨List.pairwise_cons.2 ⟨hall, hsorted⟩, fun e' he' => ?_, fun e' he' => ?_⟩
    · rcases List.mem_cons.1 he' with rfl | he'
      · exact hlt
      · exact Int.lt_trans hlt (hall e' he')
    · rcases List.mem_cons.1 he' with rfl | he'
      · exact he
      · exact hacc e' he'

theorem checkElementsFrom_complete {newView : ViewNum} {lastStable last : SeqNum} {es : List Element}
    (hsorted : SortedElements es) (hlast : ∀ e ∈ es, last < e.seqNum)
    (haccepted : ∀ e ∈ es, e.Accepted newView lastStable) :
    ViewChangeMsg.checkElementsFrom newView lastStable last es = true := by
  induction es generalizing last with
  | nil => rfl
  | cons e rest ih =>
    obtain ⟨hhead, hrest⟩ := List.pairwise_cons.1 hsorted
    have he := haccepted e List.mem_cons_self
    have hcert : ViewChangeMsg.checkCertificate e.originView e.preparedCertificate = true := by
      cases hc : e.preparedCertificate with
      | none => rfl
      | some c => simp [ViewChangeMsg.checkCertificate, he.cert_le c hc, he.cert_sig c hc]
    have htail := ih hrest hhead fun e' he' => haccepted e' (List.mem_cons_of_mem e he')
    simp [ViewChangeMsg.checkElementsFrom, hlast e List.mem_cons_self, he.in_window,
      he.originView_lt, hcert, htail]

theorem ViewChangeMsg.sorted_of_checkElements {m : ViewChangeMsg} (h : m.checkElements = true) :
    SortedElements m.elements :=
  (checkElementsFrom_sound h (Int.le_refl _)).1

theorem ViewChangeMsg.accepted_of_checkElements {m : ViewChangeMsg} (h : m.checkElements = true)
    {e : Element} (he : e ∈ m.elements) : e.Accepted m.newView m.lastStable :=
  (checkElementsFrom_sound h (Int.le_refl _)).2.2 e he

end ConcordBft
