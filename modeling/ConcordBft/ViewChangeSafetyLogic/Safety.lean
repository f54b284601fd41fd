import ConcordBft.ViewChangeSafetyLogic.Restrictions
import ConcordBft.ViewChangeMsg.Reading
import ConcordBft.Lib.Quorum

set_option autoImplicit false

/-! # Does the view change keep committed values?

The statement is about one sequence number `s`, a digest `d` that was committed there in view `v`,
and a set of `2F + 2C + 1` accepted view change messages, at most `F` of them from faulty replicas.
The messages are byte strings, and the faulty ones are arbitrary, but no certificate in them is so long
that the iterator over an accepted message fails. The rule keeps `d` unless the certificates for `d`
are hidden: a faulty replica can copy the view and the digest of a valid certificate and put other
bytes into the signature. If its iterator stands first, the set of certificates keeps the copy and
drops the valid one, and with `F ≥ 2` the votes that remain can be too few. -/

namespace ConcordBft.ViewChangeSafetyLogic

open Finset ViewChangeBody

variable (l : ViewChangeSafetyLogic) (msgs : ReplicaId → Option ViewChangeMsg)
  (byz : Finset ReplicaId) (s : SeqNum) (v : ViewNum) (d : Digest)
  (tookPart : ReplicaId → ViewNum → Digest → Prop) (prepared : ReplicaId → Prop)

/-! ## Senders and their reports -/

/-- The replicas whose message is in the set. -/
def senders : Finset ReplicaId :=
  (Finset.range l.N).filter fun i => (msgs i).isSome

/-- What replica `i` reports for `s`. -/
def report (i : ReplicaId) : Option Element :=
  (msgs i).bind fun vc => elementAt s vc.elements

theorem senders_subset : l.senders msgs ⊆ Finset.range l.N := filter_subset _ _

theorem elementsFor_eq : l.elementsFor msgs s = (List.range l.N).filterMap (report msgs s) := by
  unfold elementsFor messages
  rw [List.filterMap_filterMap]
  rfl

variable {l msgs byz s v d}

theorem mem_senders {i : ReplicaId} : i ∈ l.senders msgs ↔ i < l.N ∧ ∃ vc, msgs i = some vc := by
  simp [senders, Option.isSome_iff_exists]

theorem mem_elementsFor {e : Element} :
    e ∈ l.elementsFor msgs s ↔ ∃ i, i < l.N ∧ report msgs s i = some e := by
  rw [elementsFor_eq]
  simp

theorem length_messages : (l.messages msgs).length = (l.senders msgs).card := by
  have h := Quorum.countP_filterMap_range l.N msgs (fun _ => true)
  rw [List.countP_true] at h
  rw [messages, h]
  congr 1

theorem length_elementsFor_le : (l.elementsFor msgs s).length ≤ (l.senders msgs).card := by
  rw [← length_messages]
  exact List.length_filterMap_le _ _

/-- The votes for a digest are the replicas that report it. -/
theorem votes_elementsFor (minView : ViewNum) (x : Digest) :
    votes minView x (l.elementsFor msgs s) =
      ((Finset.range l.N).filter fun i => (report msgs s i).any
        (fun e => minView ≤ e.originView && e.prePrepreDigest == x) = true).card := by
  rw [elementsFor_eq]
  exact Quorum.countP_filterMap_range l.N (report msgs s) _

theorem votes_perm {es es' : List Element} (hp : es.Perm es') (minView : ViewNum) (x : Digest) :
    votes minView x es = votes minView x es' := hp.countP_eq _

theorem certificates_perm {es es' : List Element} (hp : es.Perm es') (x : SlowElem) :
    x ∈ certificates es ↔ x ∈ certificates es' := (hp.filterMap _).mem_iff

/-! ## A committed digest -/

/-- The messages that byte strings stand for. -/
def messagesOf (bodies : ReplicaId → Option Bytes) (i : ReplicaId) : Option ViewChangeMsg :=
  (bodies i).map message

section

variable (l msgs byz s v d)

/-- The bytes of every replica passed the checks; the signatures have the given lengths. -/
def AllPassed (sigLength : ReplicaId → ℕ) (bodies : ReplicaId → Option Bytes) : Prop :=
  ∀ i < l.N, ∀ body ∈ bodies i, Passed (sigLength i) body

/-- No certificate of the set is too long for an `int16_t`. -/
def NoLongCertificates (bodies : ReplicaId → Option Bytes) : Prop :=
  ∀ i < l.N, ∀ body ∈ bodies i, AllShort body

/-- Every iterator goes through the elements of its message. -/
def AllReadable (bodies : ReplicaId → Option Bytes) : Prop :=
  ∀ i < l.N, ∀ body ∈ bodies i, Readable body

/-- The assumptions on the senders of a set of view change messages. -/
structure ViewChangeSet : Prop where
  card_eq : (l.senders msgs).card = 2 * l.F + 2 * l.C + 1
  byz_card : byz.card ≤ l.F

/-- What the honest replicas of the set report for `s` after `d` was committed there in view `v`.
    `tookPart i w x` says that `i` took part in the agreement on `x` for `s` in view `w`, and
    `prepared i` that `i` prepared `d` in view `v`. -/
structure HonestReports : Prop where
  /-- Who took part from view `v` on reports the digest, from that view or later. -/
  reports : ∀ i ∈ l.senders msgs, i ∉ byz → ∀ w x, v ≤ w → tookPart i w x →
    ∃ e, report msgs s i = some e ∧ e.prePrepreDigest = x ∧ w ≤ e.originView
  /-- Who prepared reports the digest with a valid certificate. -/
  certified : ∀ i ∈ l.senders msgs, i ∉ byz → prepared i →
    ∃ e c, report msgs s i = some e ∧ e.prePrepreDigest = d ∧ e.preparedCertificate = some c ∧
      v ≤ c.certificateView ∧ l.verifies ⟨e, c⟩ = true
  /-- Nobody reports another digest from view `v` on. -/
  noOther : ∀ i ∈ l.senders msgs, i ∉ byz → ∀ e, report msgs s i = some e →
    e.prePrepreDigest ≠ d →
      e.originView < v ∧ ∀ c, e.preparedCertificate = some c → c.certificateView < v
  /-- Prepared certificates are unforgeable: a quorum took part in what a valid one certifies. -/
  unforgeable : ∀ x ∈ certificates (l.elementsFor msgs s), l.verifies x = true →
    ∃ P ⊆ Finset.range l.N, 2 * l.F + l.C + 1 ≤ P.card ∧
      ∀ i ∈ P, i ∉ byz → tookPart i x.c.certificateView x.e.prePrepreDigest

/-- `2F + C + 1` replicas prepared. -/
def CommittedSlow : Prop :=
  ∃ P ⊆ Finset.range l.N, 2 * l.F + l.C + 1 ≤ P.card ∧ ∀ i ∈ P, i ∉ byz → prepared i

/-- `3F + C + 1` replicas voted on the fast path. -/
def CommittedFast : Prop :=
  ∃ P ⊆ Finset.range l.N, 3 * l.F + l.C + 1 ≤ P.card ∧ ∀ i ∈ P, i ∉ byz → tookPart i v d

/-- The certificate that replica `i` reports for `s` is not hidden: every certificate of the set for
    `s` with the same view and digest verifies. -/
def NotHidden (i : ReplicaId) : Prop :=
  ∀ e c, report msgs s i = some e → e.preparedCertificate = some c →
    ∀ y ∈ certificates (l.elementsFor msgs s), y.c.certificateView = c.certificateView →
      y.e.prePrepreDigest = e.prePrepreDigest → l.verifies y = true

/-- When the committed digest is kept: on the slow path, some honest replica of the set that
    prepared has a certificate that is not hidden; on the fast path, `F` and `C` are not both
    zero. -/
def KeepsCommitted : Prop :=
  (CommittedSlow l byz prepared ∧
    ∃ i ∈ l.senders msgs, i ∉ byz ∧ prepared i ∧ NotHidden l msgs s i) ∨
  (CommittedFast l byz v d tookPart ∧ 0 < l.F + l.C)

end

variable {tookPart prepared}

theorem AllPassed.readable {sigLength : ReplicaId → ℕ} {bodies : ReplicaId → Option Bytes}
    (h : l.AllPassed sigLength bodies) (hshort : l.NoLongCertificates bodies) :
    l.AllReadable bodies ∧ l.AcceptedMsgs (messagesOf bodies) := by
  refine ⟨fun i hi body hbody => ((h i hi body hbody).message (hshort i hi body hbody)).1, ?_⟩
  intro vc hvc
  obtain ⟨i, hi, hvc⟩ := List.mem_filterMap.1 hvc
  obtain ⟨body, hbody, rfl⟩ := Option.map_eq_some_iff.1 hvc
  have hi := List.mem_range.1 hi
  exact ((h i hi body hbody).message (hshort i hi body hbody)).2

section

variable (hset : ViewChangeSet l msgs byz) (h : HonestReports l msgs byz s v d tookPart prepared)
include hset h

/-- From view `v` on, valid certificates are for `d`: an honest member of the set took part in what
    they certify. -/
theorem HonestReports.certificate_eq :
    ∀ y ∈ certificates (l.elementsFor msgs s), l.verifies y = true → v ≤ y.c.certificateView →
      y.e.prePrepreDigest = d := by
  intro y hy hver hview
  obtain ⟨P, hP, hcard, htook⟩ := h.unforgeable y hy hver
  obtain ⟨i, hiP, hiQ, hib⟩ := Quorum.exists_correct_mem_inter hP (senders_subset l msgs)
    (by simp) hset.byz_card (n := l.N) (by rw [hset.card_eq, N]; omega)
  obtain ⟨e, he, hdigest, horigin⟩ := h.reports i hiQ hib _ _ hview (htook i hiP hib)
  by_contra hne
  have := (h.noOther i hiQ hib e he (hdigest ▸ hne)).1
  lia

/-- From view `v` on, only faulty replicas vote for another digest. -/
theorem HonestReports.votes_other_le {d' : Digest} (hne : d' ≠ d) :
    votes v d' (l.elementsFor msgs s) ≤ l.F + l.C := by
  rw [votes_elementsFor]
  refine le_trans (card_le_card (t := byz) fun i hi => ?_) (le_trans hset.byz_card (by omega))
  obtain ⟨hiN, hany⟩ := mem_filter.1 hi
  by_contra hib
  obtain ⟨e, he, hp⟩ := (Option.any_eq_true _ _).1 hany
  simp only [Bool.and_eq_true, beq_iff_eq] at hp
  have hiQ : i ∈ l.senders msgs := by
    obtain ⟨vc, hvc, _⟩ := Option.bind_eq_some_iff.1 he
    exact mem_senders.2 ⟨mem_range.1 hiN, vc, hvc⟩
  have := (h.noOther i hiQ hib e he (hp.2 ▸ hne)).1
  lia

/-- A fast commit leaves `F + C + 1` honest votes in the set. -/
theorem HonestReports.votes_ge (hfast : CommittedFast l byz v d tookPart) :
    l.F + l.C + 1 ≤ votes v d (l.elementsFor msgs s) := by
  obtain ⟨P, hP, hcard, htook⟩ := hfast
  have hmeet := Quorum.card_inter_sdiff hP (senders_subset l msgs) (by simp)
    hset.byz_card (n := l.N) (k := l.F + l.C + 1) (by rw [hset.card_eq, N]; omega)
  rw [votes_elementsFor]
  refine le_trans hmeet (card_le_card fun i hi => ?_)
  rw [mem_sdiff, mem_inter] at hi
  obtain ⟨⟨hiP, hiQ⟩, hib⟩ := hi
  obtain ⟨e, he, hdigest, horigin⟩ := h.reports i hiQ hib v d (le_refl _) (htook i hiP hib)
  refine mem_filter.2 ⟨hP hiP, (Option.any_eq_true _ _).2 ⟨e, he, ?_⟩⟩
  simp [hdigest, horigin]

end

/-- In whatever order the elements are looked at, the committed digest is selected. -/
theorem selection_of_committed (hv : 0 ≤ v) (hset : ViewChangeSet l msgs byz)
    (h : HonestReports l msgs byz s v d tookPart prepared)
    (hkeep : KeepsCommitted l msgs byz s v d tookPart prepared) {es : List Element}
    (hes : es.Perm (l.elementsFor msgs s)) : l.selection es = some d := by
  have hcert : ∀ y ∈ certificates es, l.verifies y = true → v ≤ y.c.certificateView →
      y.e.prePrepreDigest = d := fun y hy =>
    h.certificate_eq hset y ((certificates_perm hes y).1 hy)
  rcases hkeep with ⟨_, i, hiQ, hib, hprep, hclear⟩ | ⟨hfast, hpos⟩
  · obtain ⟨e, c, he, hdigest, hc, hview, hver⟩ := h.certified i hiQ hib hprep
    have hmem : (⟨e, c⟩ : SlowElem) ∈ certificates (l.elementsFor msgs s) :=
      mem_certificates.2 ⟨mem_elementsFor.2 ⟨i, (mem_senders.1 hiQ).1, he⟩, hc⟩
    have hclean : l.CleanCertificate es ⟨e, c⟩ := by
      refine ⟨(certificates_perm hes _).2 hmem, fun y hy hkey => ?_⟩
      obtain ⟨hyview, hydigest⟩ := (slowKey_eq_iff _ _).1 hkey
      exact hclear e c he hc y ((certificates_perm hes y).1 hy) hyview hydigest
    refine selection_of_certificate hclean hview hcert fun d' hd' => ?_
    rw [votes_perm hes]
    exact h.votes_other_le hset hd'
  · refine selection_of_votes hv hpos ?_ ?_ hcert
    · rw [hes.length_eq, ← hset.card_eq]
      exact length_elementsFor_le
    · rw [votes_perm hes]
      exact h.votes_ge hset hfast

/-- **The view change keeps committed values that are not hidden.** For every set of accepted view
    change messages without long certificates, every lower bound `lb` and every `s` of its window: if
    `d` was committed at `s` in view `v`, the honest replicas of the set report it, and the certificate
    of one of them is not hidden (or the commit was fast), then no iterator fails and
    `computeRestrictions` restricts `s` to `d`. -/
theorem computeRestrictions_keeps_committed {bodies : ReplicaId → Option Bytes}
    {sigLength : ReplicaId → ℕ} (hpassed : l.AllPassed sigLength bodies)
    (hshort : l.NoLongCertificates bodies) (hv : 0 ≤ v)
    (hset : ViewChangeSet l (messagesOf bodies) byz)
    (h : HonestReports l (messagesOf bodies) byz s v d tookPart prepared)
    (hkeep : KeepsCommitted l (messagesOf bodies) byz s v d tookPart prepared)
    {arr : List Restriction} (harr : (arr.length : Int) = kWorkWindowSize) (lb : SeqNum)
    (hlo : lb + 1 ≤ s) (hhi : s ≤ lb + kWorkWindowSize) :
    l.AllReadable bodies ∧ ∃ out r, l.computeRestrictions (messagesOf bodies) lb arr = .ok out ∧
      out.restrictionAt lb s = some r ∧
      (if d = l.nullDigest then r.isNull = true else r.isNull = false ∧ r.digest = d) := by
  obtain ⟨hreadable, haccepted⟩ := hpassed.readable hshort
  refine ⟨hreadable, ?_⟩
  obtain ⟨out, hout, hspec⟩ := computeRestrictions_spec haccepted lb harr
  obtain ⟨r, es, hr, hes, hmatch⟩ := hspec.entry s (by lia) hhi
  refine ⟨out, r, hout, hr, ?_⟩
  rw [Restriction.Matches, selection_of_committed hv hset h hkeep hes] at hmatch
  by_cases hd : d = l.nullDigest
  · rw [if_pos (Or.inr (by rw [hd]))] at hmatch
    rw [if_pos hd]
    exact hmatch
  · rw [if_neg (by simp [hd])] at hmatch
    rw [if_neg hd]
    exact ⟨hmatch.1, (Option.some.inj hmatch.2).symm⟩

/-- Seven replicas (`F = 2`, `C = 0`) and one valid signature: `[1]`, for digest 7 prepared at
    sequence number `s` in view 0. -/
def sevenReplicas (s : SeqNum) : ViewChangeSafetyLogic where
  F := 2
  C := 0
  preparedCertVerifier := fun d sig => d == Digest.calcCombination 7#256 0 s && sig == [1]

/-- The element for digest 7 at `s` of view 0, with the given signature bytes. -/
def preparedSeven (s : SeqNum) (sig : Bytes) : Element := ⟨s, 7#256, 0, some ⟨0, sig⟩⟩

/-- Replica 4 reports its valid certificate; replica 0 is faulty and reports `copy`. -/
def oneCertificateMsgs (copy : List Element) : ReplicaId → Option ViewChangeMsg
  | 0 => some ⟨0, 1, 0, copy⟩
  | 1 => some ⟨1, 1, 0, []⟩
  | 2 => some ⟨2, 1, 0, []⟩
  | 3 => some ⟨3, 1, 0, []⟩
  | 4 => some ⟨4, 1, 0, [preparedSeven 1 [1]]⟩
  | _ => none

/-- The bytes of messages, with signatures of 16 bytes. -/
def bodiesOf (msgs : ReplicaId → Option ViewChangeMsg) (i : ReplicaId) : Option Bytes :=
  (msgs i).map (·.finishedBytes (List.replicate 16 0))

/-- Replicas 4, 5 and 6 took part in the agreement on digest 7 in view 0. -/
def tookPartInSeven (i : ReplicaId) (w : ViewNum) (x : Digest) : Prop :=
  i ∈ [4, 5, 6] ∧ w = 0 ∧ x = 7#256

theorem oneCertificate_quorum {i : ReplicaId} (hi : i ∈ ({0, 1, 4, 5, 6} : Finset ReplicaId))
    (hib : i ∉ ({0, 1} : Finset ReplicaId)) : i ∈ [4, 5, 6] := by
  revert hi hib
  simp only [mem_insert, mem_singleton, List.mem_cons]
  tauto

theorem oneCertificate_reports {copy : List Element}
    (hcopy : copy = [] ∨ copy = [preparedSeven 1 [0]]) :
    HonestReports (sevenReplicas 1) (oneCertificateMsgs copy) {0, 1} 1 0 7#256 tookPartInSeven
      (fun i => i ∈ [4, 5, 6]) := by
  have hhonest : ∀ i ∈ (sevenReplicas 1).senders (oneCertificateMsgs copy),
      i ∉ ({0, 1} : Finset ReplicaId) → i = 2 ∨ i = 3 ∨ i = 4 := by
    rcases hcopy with rfl | rfl <;> decide
  have hfour : ∀ i ∈ (sevenReplicas 1).senders (oneCertificateMsgs copy),
      i ∉ ({0, 1} : Finset ReplicaId) → i ∈ [4, 5, 6] → i = 4 := by
    intro i hi hib hmem
    rcases hhonest i hi hib with rfl | rfl | rfl <;> revert hmem <;> decide
  refine ⟨?_, ?_, ?_, ?_⟩
  · rintro i hi hib w x _ ⟨hmem, rfl, rfl⟩
    obtain rfl := hfour i hi hib hmem
    exact ⟨preparedSeven 1 [1], rfl, rfl, le_refl _⟩
  · intro i hi hib hmem
    obtain rfl := hfour i hi hib hmem
    exact ⟨preparedSeven 1 [1], ⟨0, [1]⟩, rfl, rfl, rfl, le_refl _, by decide⟩
  · intro i hi hib e he hne
    rcases hhonest i hi hib with rfl | rfl | rfl
    · exact absurd he (by simp [report, oneCertificateMsgs, elementAt])
    · exact absurd he (by simp [report, oneCertificateMsgs, elementAt])
    · obtain rfl : preparedSeven 1 [1] = e := Option.some.inj he
      exact absurd rfl hne
  · intro x hx _
    have hcerts : ∀ x ∈ certificates ((sevenReplicas 1).elementsFor (oneCertificateMsgs copy) 1),
        x.c.certificateView = 0 ∧ x.e.prePrepreDigest = 7#256 := by
      rcases hcopy with rfl | rfl <;> decide
    exact ⟨{0, 1, 4, 5, 6}, by decide, by decide, fun i hi hib =>
      ⟨oneCertificate_quorum hi hib, hcerts x hx⟩⟩

theorem oneCertificate_set {copy : List Element}
    (hcopy : copy = [] ∨ copy = [preparedSeven 1 [0]]) :
    (sevenReplicas 1).AllPassed (fun _ => 16) (bodiesOf (oneCertificateMsgs copy)) ∧
      (sevenReplicas 1).NoLongCertificates (bodiesOf (oneCertificateMsgs copy)) ∧
      messagesOf (bodiesOf (oneCertificateMsgs copy)) = oneCertificateMsgs copy ∧
      ViewChangeSet (sevenReplicas 1) (oneCertificateMsgs copy) {0, 1} := by
  rcases hcopy with rfl | rfl
  all_goals
    unfold AllPassed NoLongCertificates
    refine ⟨by decide +kernel, by decide +kernel, funext fun i => ?_, by decide, by decide⟩
    rcases i with _ | _ | _ | _ | _ | i
    any_goals decide +kernel
    rfl

theorem oneCertificate_committed :
    CommittedSlow (sevenReplicas 1) {0, 1} (fun i => i ∈ [4, 5, 6]) :=
  ⟨{0, 1, 4, 5, 6}, by decide, by decide, fun _ hi hib => oneCertificate_quorum hi hib⟩

/-- Without a copy the certificate of replica 4 decides. -/
theorem computeRestrictions_keeps_seven :
    ∃ out r, (sevenReplicas 1).computeRestrictions
        (messagesOf (bodiesOf (oneCertificateMsgs []))) 0 newRestrictions = .ok out ∧
      out.restrictionAt 0 1 = some r ∧
      (if 7#256 = (sevenReplicas 1).nullDigest then r.isNull = true
        else r.isNull = false ∧ r.digest = 7#256) := by
  obtain ⟨hpassed, hshort, hmsgs, hset⟩ := @oneCertificate_set [] (Or.inl rfl)
  have hreports := @oneCertificate_reports [] (Or.inl rfl)
  have hclear : NotHidden (sevenReplicas 1) (oneCertificateMsgs []) 1 4 := by
    intro e c _ _ y hy _ _
    have hall : ∀ y ∈ certificates ((sevenReplicas 1).elementsFor (oneCertificateMsgs []) 1),
        (sevenReplicas 1).verifies y = true := by decide
    exact hall y hy
  have hkeep : KeepsCommitted (sevenReplicas 1) (oneCertificateMsgs []) {0, 1} 1 0 7#256
      tookPartInSeven (fun i => i ∈ [4, 5, 6]) :=
    Or.inl ⟨oneCertificate_committed, 4, by decide, by decide, by decide, hclear⟩
  rw [← hmsgs] at hset hreports hkeep
  exact (computeRestrictions_keeps_committed hpassed hshort (le_refl 0) hset hreports hkeep
    newRestrictions_length 0 (by decide) (by decide)).2

/-- Five of seven replicas prepared digest 7, replica 4 reports its valid certificate, and the
    restriction for the sequence number is null: the copy in the message of replica 0 stands first
    in the set of certificates and does not verify, and two votes are not `F + C + 1`. -/
theorem computeRestrictions_loses_hidden :
    ∃ bodies, (sevenReplicas 1).AllPassed (fun _ => 16) bodies ∧
    (sevenReplicas 1).NoLongCertificates bodies ∧
    ViewChangeSet (sevenReplicas 1) (messagesOf bodies) {0, 1} ∧
    HonestReports (sevenReplicas 1) (messagesOf bodies) {0, 1} 1 0 7#256 tookPartInSeven
      (fun i => i ∈ [4, 5, 6]) ∧
    CommittedSlow (sevenReplicas 1) {0, 1} (fun i => i ∈ [4, 5, 6]) ∧
    ¬ ∃ out r, (sevenReplicas 1).computeRestrictions (messagesOf bodies) 0 newRestrictions = .ok out ∧
      out.restrictionAt 0 1 = some r ∧ r.isNull = false ∧ r.digest = 7#256 := by
  obtain ⟨hpassed, hshort, hmsgs, hset⟩ :=
    @oneCertificate_set [preparedSeven 1 [0]] (Or.inr rfl)
  refine ⟨_, hpassed, hshort, ?_⟩
  rw [hmsgs]
  refine ⟨hset, oneCertificate_reports (Or.inr rfl), oneCertificate_committed, ?_⟩
  rintro ⟨out, r, hout, hr, hnull, _⟩
  have hentry : ((sevenReplicas 1).computeRestrictions (oneCertificateMsgs [preparedSeven 1 [0]]) 0
      newRestrictions).map (fun out => (out.restrictionAt 0 1).map (·.isNull)) =
      .ok (some true) := by decide
  rw [hout] at hentry
  simp [Except.map, hr, hnull] at hentry

/-! ## Restrictions and the lower bound -/

/-- **Restrictions do not depend on the lower bound** where no certificate is long and the certificates
    of one view and digest agree: two runs over the same messages compute the same restriction for a
    sequence number that lies in both windows. -/
theorem computeRestrictions_lowerBound_irrelevant {bodies : ReplicaId → Option Bytes}
    {sigLength : ReplicaId → ℕ} (hpassed : l.AllPassed sigLength bodies)
    (hshort : l.NoLongCertificates bodies) (hset : ViewChangeSet l (messagesOf bodies) byz)
    (hsame : l.SameVerdict (l.elementsFor (messagesOf bodies) s)) {arr₁ arr₂ : List Restriction}
    (harr₁ : (arr₁.length : Int) = kWorkWindowSize) (harr₂ : (arr₂.length : Int) = kWorkWindowSize)
    (lb₁ lb₂ : SeqNum) (hlo₁ : lb₁ + 1 ≤ s) (hhi₁ : s ≤ lb₁ + kWorkWindowSize)
    (hlo₂ : lb₂ + 1 ≤ s) (hhi₂ : s ≤ lb₂ + kWorkWindowSize) :
    l.AllReadable bodies ∧ ∃ out₁ out₂ r₁ r₂,
      l.computeRestrictions (messagesOf bodies) lb₁ arr₁ = .ok out₁ ∧
      l.computeRestrictions (messagesOf bodies) lb₂ arr₂ = .ok out₂ ∧
      out₁.restrictionAt lb₁ s = some r₁ ∧ out₂.restrictionAt lb₂ s = some r₂ ∧
      r₁.isNull = r₂.isNull ∧ (r₁.isNull = false → r₁.digest = r₂.digest) := by
  obtain ⟨hreadable, haccepted⟩ := hpassed.readable hshort
  obtain ⟨out₁, hout₁, hspec₁⟩ := computeRestrictions_spec haccepted lb₁ harr₁
  obtain ⟨out₂, hout₂, hspec₂⟩ := computeRestrictions_spec haccepted lb₂ harr₂
  obtain ⟨r₁, es₁, hr₁, hes₁, hm₁⟩ := hspec₁.entry s (by lia) hhi₁
  obtain ⟨r₂, es₂, hr₂, hes₂, hm₂⟩ := hspec₂.entry s (by lia) hhi₂
  have hlen : (l.elementsFor (messagesOf bodies) s).length ≤ 2 * l.F + 2 * l.C + 1 := by
    rw [← hset.card_eq]
    exact length_elementsFor_le
  have heq : l.selection es₁ = l.selection es₂ :=
    (selection_perm hes₁.symm hsame hlen).symm.trans (selection_perm hes₂.symm hsame hlen)
  refine ⟨hreadable, out₁, out₂, r₁, r₂, hout₁, hout₂, hr₁, hr₂, ?_⟩
  rw [Restriction.Matches, heq] at hm₁
  rw [Restriction.Matches] at hm₂
  split_ifs at hm₁ hm₂ with hnull
  · simp [hm₁, hm₂]
  · exact ⟨hm₁.1.trans hm₂.1.symm, fun _ => Option.some.inj (hm₁.2.symm.trans hm₂.2)⟩

/-- Replica 0 has an element for sequence number 1 only. Replica 1 reports a valid certificate for
    sequence number 2, and replica 4 reports `copy` there. -/
def twoNumbersMsgs (copy : List Element) : ReplicaId → Option ViewChangeMsg
  | 0 => some ⟨0, 1, 0, [⟨1, 9#256, 0, none⟩]⟩
  | 1 => some ⟨1, 1, 0, [preparedSeven 2 [1]]⟩
  | 2 => some ⟨2, 1, 0, []⟩
  | 3 => some ⟨3, 1, 0, []⟩
  | 4 => some ⟨4, 1, 0, copy⟩
  | _ => none

theorem twoNumbers_set {copy : List Element} (hcopy : copy = [] ∨ copy = [preparedSeven 2 [0]]) :
    (sevenReplicas 2).AllPassed (fun _ => 16) (bodiesOf (twoNumbersMsgs copy)) ∧
      (sevenReplicas 2).NoLongCertificates (bodiesOf (twoNumbersMsgs copy)) ∧
      messagesOf (bodiesOf (twoNumbersMsgs copy)) = twoNumbersMsgs copy ∧
      ViewChangeSet (sevenReplicas 2) (twoNumbersMsgs copy) {4} := by
  rcases hcopy with rfl | rfl
  all_goals
    unfold AllPassed NoLongCertificates
    refine ⟨by decide +kernel, by decide +kernel, funext fun i => ?_, by decide, by decide⟩
    rcases i with _ | _ | _ | _ | _ | i
    any_goals decide +kernel
    rfl

theorem computeRestrictions_lowerBound_irrelevant_two :
    ∃ out₁ out₂ r₁ r₂,
      (sevenReplicas 2).computeRestrictions (messagesOf (bodiesOf (twoNumbersMsgs []))) 0
        newRestrictions = .ok out₁ ∧
      (sevenReplicas 2).computeRestrictions (messagesOf (bodiesOf (twoNumbersMsgs []))) 1
        newRestrictions = .ok out₂ ∧
      out₁.restrictionAt 0 2 = some r₁ ∧ out₂.restrictionAt 1 2 = some r₂ ∧
      r₁.isNull = r₂.isNull ∧ (r₁.isNull = false → r₁.digest = r₂.digest) := by
  obtain ⟨hpassed, hshort, hmsgs, hset⟩ := @twoNumbers_set [] (Or.inl rfl)
  have hsame : (sevenReplicas 2).SameVerdict ((sevenReplicas 2).elementsFor (twoNumbersMsgs []) 2) := by
    intro x hx y hy _
    have hall : ∀ x ∈ certificates ((sevenReplicas 2).elementsFor (twoNumbersMsgs []) 2),
        (sevenReplicas 2).verifies x = true := by decide
    rw [hall x hx, hall y hy]
  rw [← hmsgs] at hset hsame
  exact (computeRestrictions_lowerBound_irrelevant hpassed hshort hset hsame newRestrictions_length
    newRestrictions_length 0 1 (by decide) (by decide) (by decide) (by decide)).2

/-- With the lower bound 0 the iterator of replica 0 is used up at sequence number 1, and the last
    iterator, that of the faulty replica 4, takes its place in front of replica 1: the copy hides
    the valid certificate and the restriction for 2 is null. With the lower bound 1 replica 0 has no
    iterator, replica 1 stands first, and 2 is restricted to digest 7. -/
theorem computeRestrictions_depends_on_lowerBound :
    ∃ bodies, (sevenReplicas 2).AllPassed (fun _ => 16) bodies ∧
    (sevenReplicas 2).NoLongCertificates bodies ∧
    ViewChangeSet (sevenReplicas 2) (messagesOf bodies) {4} ∧
    ¬ ∃ out₁ out₂ r₁ r₂,
      (sevenReplicas 2).computeRestrictions (messagesOf bodies) 0 newRestrictions = .ok out₁ ∧
      (sevenReplicas 2).computeRestrictions (messagesOf bodies) 1 newRestrictions = .ok out₂ ∧
      out₁.restrictionAt 0 2 = some r₁ ∧ out₂.restrictionAt 1 2 = some r₂ ∧
      r₁.isNull = r₂.isNull ∧ (r₁.isNull = false → r₁.digest = r₂.digest) := by
  obtain ⟨hpassed, hshort, hmsgs, hset⟩ :=
    @twoNumbers_set [preparedSeven 2 [0]] (Or.inr rfl)
  refine ⟨_, hpassed, hshort, ?_⟩
  rw [hmsgs]
  refine ⟨hset, ?_⟩
  rintro ⟨out₁, out₂, r₁, r₂, hout₁, hout₂, hr₁, hr₂, hnull, _⟩
  have h₁ : ((sevenReplicas 2).computeRestrictions (twoNumbersMsgs [preparedSeven 2 [0]]) 0
      newRestrictions).map (fun out => (out.restrictionAt 0 2).map (·.isNull)) =
      .ok (some true) := by decide
  have h₂ : ((sevenReplicas 2).computeRestrictions (twoNumbersMsgs [preparedSeven 2 [0]]) 1
      newRestrictions).map (fun out => (out.restrictionAt 1 2).map (·.isNull)) =
      .ok (some false) := by decide
  rw [hout₁] at h₁
  rw [hout₂] at h₂
  simp only [Except.map, hr₁, hr₂, Option.map_some, Except.ok.injEq, Option.some.injEq] at h₁ h₂
  rw [h₁, h₂] at hnull
  simp at hnull

end ConcordBft.ViewChangeSafetyLogic
