import ConcordBft.ViewChangeSafetyLogic.Restrictions

set_option autoImplicit false

/-! # The selection rule

When every certificate verifies, the restriction for a sequence number follows a rule that mentions
neither iterators nor the order of the messages (`Selects`). Votes count when their origin view is
above the view of every certificate. Without a certificate they count from view 0 on: an element
with a negative origin view passes `checkElements` and never votes.

The second part is about the walk. `iteratorsAfter` are the iterators that the loop has when it
comes to a number, and one step treats each of them exactly once (`advanced`). -/

namespace ConcordBft

open Checked

namespace ViewChangeSafetyLogic

variable (l : ViewChangeSafetyLogic) (es : List Element)

/-! ## The rule -/

/-- Does the element vote? -/
def mayVote (e : Element) : Bool :=
  if certificates es = [] then 0 ≤ e.originView
  else (certificates es).all fun x => x.c.certificateView < e.originView

/-- The number of votes for `d`. -/
def supporters (d : Digest) : ℕ :=
  es.countP fun e => mayVote es e && e.prePrepreDigest == d

/-- No certificate is of a higher view, and of those of the same view none has a smaller digest. -/
structure IsHighest (x : SlowElem) : Prop where
  mem : x ∈ certificates es
  view_le : ∀ y ∈ certificates es, y.c.certificateView ≤ x.c.certificateView
  digest_le : ∀ y ∈ certificates es, y.c.certificateView = x.c.certificateView →
    x.e.prePrepreDigest ≤ y.e.prePrepreDigest

/-- What the elements for one sequence number select. -/
inductive Selects : Option Digest → Prop
  | voted {d : Digest} (h : l.F + l.C + 1 ≤ supporters es d) : Selects (some d)
  | certified {x : SlowElem} (hx : IsHighest es x) (h : ∀ d, supporters es d ≤ l.F + l.C) :
      Selects (some x.e.prePrepreDigest)
  | nothing (hx : certificates es = []) (h : ∀ d, supporters es d ≤ l.F + l.C) : Selects none

/-- Every certificate of the elements verifies. -/
def AllVerify : Prop :=
  ∀ x ∈ certificates es, l.verifies x = true

variable {l es} {msgs : ReplicaId → Option ViewChangeMsg}

section

variable (h : l.AllVerify es)
include h

theorem AllVerify.sameVerdict : l.SameVerdict es := by
  intro x hx y hy _
  rw [h x hx, h y hy]

theorem AllVerify.clean {x : SlowElem} (hx : x ∈ certificates es) : l.CleanCertificate es x :=
  ⟨hx, fun y hy _ => h y hy⟩

theorem AllVerify.certificates_eq_nil (hnone : l.selectedCertificate es = none) :
    certificates es = [] := by
  by_contra hne
  obtain ⟨x, hx⟩ := List.exists_mem_of_ne_nil _ hne
  obtain ⟨y, hy, -⟩ := selectedCertificate_of_clean (h.clean hx)
  rw [hnone] at hy
  simp at hy

theorem AllVerify.isHighest {x : SlowElem} (hx : l.selectedCertificate es = some x) :
    IsHighest es x := by
  have hle : ∀ y ∈ certificates es, slowKey x ≤ slowKey y := by
    intro y hy
    obtain ⟨z, hz, hkey⟩ := selectedCertificate_of_clean (h.clean hy)
    obtain rfl : x = z := Option.some.inj (hx.symm.trans hz)
    exact hkey
  refine ⟨(selectedCertificate_some hx).1, fun y hy => view_le_of_slowKey_le (hle y hy), ?_⟩
  intro y hy hview
  rcases Prod.Lex.toLex_le_toLex.1 (hle y hy) with hlt | ⟨-, hdigest⟩
  · exact absurd (OrderDual.toDual_lt_toDual.1 hlt) (by lia)
  · exact hdigest

theorem AllVerify.votes_eq (d : Digest) :
    votes (minRelevantFastView (l.selectedCertificate es)) d es = supporters es d := by
  unfold votes supporters
  refine List.countP_congr fun e _ => ?_
  simp only [Bool.and_eq_true, decide_eq_true_eq]
  refine and_congr_left fun _ => ?_
  cases hsel : l.selectedCertificate es with
  | none => simp [mayVote, h.certificates_eq_nil hsel, minRelevantFastView]
  | some x =>
    have hhigh := h.isHighest hsel
    simp only [mayVote, minRelevantFastView, List.ne_nil_of_mem hhigh.mem, if_false,
      List.all_eq_true]
    constructor
    · intro hle y hy
      have := hhigh.view_le y hy
      lia
    · intro hall
      have := hall x hhigh.mem
      lia

end

theorem IsHighest.digest_eq {x y : SlowElem} (hx : IsHighest es x) (hy : IsHighest es y) :
    x.e.prePrepreDigest = y.e.prePrepreDigest := by
  have hview := le_antisymm (hy.view_le x hx.mem) (hx.view_le y hy.mem)
  exact BitVec.le_antisymm (hx.digest_le y hy.mem hview.symm) (hy.digest_le x hx.mem hview)

section

variable (h : l.AllVerify es) (hpos : 0 < l.F + l.C) (hlen : es.length ≤ 2 * l.F + 2 * l.C + 1)
include h hpos hlen

theorem AllVerify.votedDigest_iff (d : Digest) :
    l.votedDigest (minRelevantFastView (l.selectedCertificate es)) es = some d ↔
      l.F + l.C + 1 ≤ supporters es d := by
  rw [votedDigest_eq_some_iff hlen, h.votes_eq]
  exact and_iff_right hpos

theorem AllVerify.votedDigest_eq_none :
    l.votedDigest (minRelevantFastView (l.selectedCertificate es)) es = none ↔
      ∀ d, supporters es d ≤ l.F + l.C := by
  rw [Option.eq_none_iff_forall_not_mem]
  refine forall_congr' fun d => ?_
  rw [Option.mem_def, h.votedDigest_iff hpos hlen]
  omega

/-- **The code selects by the rule** when all certificates verify, and the rule leaves no choice. -/
theorem AllVerify.selects_iff (sel : Option Digest) : Selects l es sel ↔ sel = l.selection es := by
  unfold selection
  constructor
  · intro hsel
    cases hsel with
    | voted hvotes => rw [(h.votedDigest_iff hpos hlen _).2 hvotes]
    | certified hx hfew =>
      obtain ⟨y, hy, -⟩ := selectedCertificate_of_clean (h.clean hx.mem)
      rw [(h.votedDigest_eq_none hpos hlen).2 hfew, hy, Option.map_some,
        hx.digest_eq (h.isHighest hy)]
    | nothing hx hfew =>
      have hnone : l.selectedCertificate es = none := by
        rw [selectedCertificate, hx]
        rfl
      rw [(h.votedDigest_eq_none hpos hlen).2 hfew, hnone]
      rfl
  · rintro rfl
    cases hv : l.votedDigest (minRelevantFastView (l.selectedCertificate es)) es with
    | some d => exact .voted ((h.votedDigest_iff hpos hlen d).1 hv)
    | none =>
      have hfew := (h.votedDigest_eq_none hpos hlen).1 hv
      cases hsel : l.selectedCertificate es with
      | none => exact .nothing (h.certificates_eq_nil hsel) hfew
      | some x => exact .certified (h.isHighest hsel) hfew

end

/-! ## One step of the walk -/

/-- What becomes of an iterator when the walk leaves `s`: one that stands at `s` goes to its next
    element, or is removed when it has none up to the upper bound. -/
def advanced (s upperBound : SeqNum) (it : ElementsIterator) : Option ElementsIterator :=
  match it.getCurrent with
  | none => none
  | some elem =>
    if s < elem.seqNum then some it
    else if needed upperBound it.gotoNext then some it.gotoNext
    else none

/-- **Each iterator is treated exactly once**, although a removed one is replaced by the last. -/
theorem advanceIterators_perm (s upperBound : SeqNum) {its its' : List ElementsIterator}
    (h : advanceIterators s upperBound its.length its = .ok its') :
    its'.Perm (its.filterMap (advanced s upperBound)) := by
  induction hn : its.length generalizing its its' with
  | zero =>
    obtain rfl : its = [] := List.length_eq_zero_iff.1 hn
    cases h
    exact List.Perm.refl _
  | succ n ih =>
    obtain ⟨it, rest, rfl⟩ := List.exists_cons_of_length_eq_add_one hn
    have hlen : rest.length = n := by simpa using hn
    rw [hn] at h
    unfold advanceIterators at h
    cases hcur : it.getCurrent with
    | none =>
      rw [hcur] at h
      cases h
    | some elem =>
      rw [hcur] at h
      dsimp only at h
      by_cases hlt : s < elem.seqNum
      · rw [if_pos hlt] at h
        obtain ⟨rest', hrest, h⟩ := bind_eq_ok h
        cases h
        rw [List.filterMap_cons_some (b := it) (by simp [advanced, hcur, hlt])]
        exact (ih (hlen ▸ hrest) hlen).cons it
      rw [if_neg hlt] at h
      by_cases hneed : needed upperBound it.gotoNext = true
      · rw [if_pos hneed] at h
        obtain ⟨rest', hrest, h⟩ := bind_eq_ok h
        cases h
        rw [List.filterMap_cons_some (b := it.gotoNext) (by simp [advanced, hcur, hlt, hneed])]
        exact (ih (hlen ▸ hrest) hlen).cons it.gotoNext
      · rw [if_neg hneed] at h
        have hp := replaceByLast_perm rest
        have hlen' := hp.length_eq.trans hlen
        rw [List.filterMap_cons_none (by simp [advanced, hcur, hlt, hneed])]
        exact (ih (hlen' ▸ h) hlen').trans (hp.filterMap _)

/-- The iterators that a step leaves are the advanced ones. -/
theorem perm_of_computeRestrictionsForSeqNum {s upperBound : SeqNum}
    {its its' : List ElementsIterator} {hasRest : Bool} {d : Digest}
    (h : l.computeRestrictionsForSeqNum s its upperBound = .ok (hasRest, d, its')) :
    its'.Perm (its.filterMap (advanced s upperBound)) := by
  obtain ⟨-, h⟩ := require_bind_eq_ok h
  obtain ⟨-, h⟩ := require_bind_eq_ok h
  obtain ⟨elems, -, h⟩ := bind_eq_ok h
  obtain ⟨ok, -, h⟩ := bind_eq_ok h
  obtain ⟨-, h⟩ := require_bind_eq_ok h
  obtain ⟨slow, -, h⟩ := bind_eq_ok h
  obtain ⟨its₁, hadvance, h⟩ := bind_eq_ok h
  have hits : its₁ = its' := by
    split at h <;> (cases h; rfl)
  exact hits ▸ advanceIterators_perm s upperBound hadvance

/-! ## The walk -/

/-- The iterators that the loop has after `k` steps from `cur`. -/
def iteratorsAfter (l : ViewChangeSafetyLogic) (upperBound : SeqNum) :
    ℕ → SeqNum → List ElementsIterator → Except Failure (List ElementsIterator)
  | 0, _, VCIterators => pure VCIterators
  | k + 1, currSeqNum, VCIterators =>
    if VCIterators = [] then pure []
    else do
      let (_, _, VCIterators) ← l.computeRestrictionsForSeqNum currSeqNum VCIterators upperBound
      iteratorsAfter l upperBound k (currSeqNum + 1) VCIterators

/-- A step of the walk at `s`, from `its` to `its'`, that leaves the entry `r`. -/
def WalkStep (l : ViewChangeSafetyLogic) (upperBound s : SeqNum) (its its' : List ElementsIterator)
    (r : Restriction) : Prop :=
  (its = [] ∧ its' = [] ∧ r.isNull = true) ∨
    ∃ hasRest d, l.computeRestrictionsForSeqNum s its upperBound = .ok (hasRest, d, its') ∧
      r = ⟨d, !(hasRest && d != l.nullDigest)⟩

/-- **The loop is a walk.** Its `k`-th entry is what the step from the iterators after `k` steps
    leaves. -/
theorem walkStep_of_computeRestrictionsFrom {upperBound cur last last' : SeqNum}
    {its : List ElementsIterator} {arr out : List Restriction}
    (h : l.computeRestrictionsFrom upperBound cur its last arr = .ok (out, last')) {k : ℕ}
    {r : Restriction} (hr : out[k]? = some r) :
    ∃ itsK itsK', l.iteratorsAfter upperBound k cur its = .ok itsK ∧
      l.iteratorsAfter upperBound (k + 1) cur its = .ok itsK' ∧
      WalkStep l upperBound (cur + k) itsK itsK' r := by
  induction arr generalizing cur its last out k with
  | nil =>
    cases h
    simp at hr
  | cons r₀ rest ih =>
    unfold computeRestrictionsFrom at h
    by_cases hnil : its = []
    · rw [if_pos hnil] at h
      cases h
      have hnull : r.isNull = true := by
        rw [List.getElem?_map, Option.map_eq_some_iff] at hr
        obtain ⟨r₁, -, rfl⟩ := hr
        rfl
      refine ⟨[], [], ?_, by rw [iteratorsAfter, if_pos hnil]; rfl, Or.inl ⟨rfl, rfl, hnull⟩⟩
      cases k with
      | zero =>
        rw [hnil]
        rfl
      | succ k =>
        rw [iteratorsAfter, if_pos hnil]
        rfl
    rw [if_neg hnil] at h
    obtain ⟨⟨hasRest, d, its'⟩, hstep, h⟩ := bind_eq_ok h
    obtain ⟨⟨out', last₁⟩, hrest, h⟩ := bind_eq_ok h
    cases h
    have hafter : ∀ n, l.iteratorsAfter upperBound (n + 1) cur its =
        l.iteratorsAfter upperBound n (cur + 1) its' := by
      intro n
      rw [iteratorsAfter, if_neg hnil, hstep]
      rfl
    cases k with
    | zero =>
      obtain rfl : _ = r := Option.some.inj hr
      refine ⟨its, its', rfl, hafter 0, Or.inr ⟨hasRest, d, ?_, rfl⟩⟩
      simpa using hstep
    | succ k =>
      obtain ⟨itsK, itsK', hK, hK', hwalk⟩ := ih hrest (by simpa using hr)
      have hcast : cur + 1 + (k : Int) = cur + ((k + 1 : ℕ) : Int) := by
        lia
      rw [hcast] at hwalk
      exact ⟨itsK, itsK', (hafter k).trans hK, (hafter (k + 1)).trans hK', hwalk⟩

/-- The iterators of the walk have reached its number. -/
theorem ready_of_iteratorsAfter {upperBound : SeqNum} (k : ℕ) {cur : SeqNum}
    {its itsK : List ElementsIterator} (hready : Ready cur its) (hle : cur + k ≤ upperBound + 1)
    (h : l.iteratorsAfter upperBound k cur its = .ok itsK) : Ready (cur + k) itsK := by
  induction k generalizing cur its with
  | zero =>
    cases h
    simpa using hready
  | succ k ih =>
    unfold iteratorsAfter at h
    by_cases hnil : its = []
    · rw [if_pos hnil] at h
      cases h
      intro it hit
      simp at hit
    rw [if_neg hnil] at h
    obtain ⟨its', hstep, hready', -⟩ :=
      computeRestrictionsForSeqNum_spec (l := l) hready hnil (show cur ≤ upperBound by lia)
    rw [hstep] at h
    have := ih hready' (by lia) h
    rwa [show cur + 1 + (k : Int) = cur + (k + 1) by lia] at this

/-! ## The result -/

/-- The step at `s` that a run over the messages takes. -/
theorem walkStep_of_computeRestrictions (hacc : l.AcceptedMsgs msgs) {lb s : SeqNum}
    (hlo : lb + 1 ≤ s) (hhi : s ≤ lb + kWorkWindowSize) {arr : List Restriction}
    {out : RestrictionsOfView} (h : l.computeRestrictions msgs lb arr = .ok out) {r : Restriction}
    (hr : out.restrictionAt lb s = some r) :
    ∃ (k : ℕ) (its its' : List ElementsIterator), lb + 1 + k = s ∧
      l.iteratorsAfter (lb + kWorkWindowSize) k (lb + 1) (l.createIterators msgs (lb + 1)) =
        .ok its ∧
      l.iteratorsAfter (lb + kWorkWindowSize) (k + 1) (lb + 1) (l.createIterators msgs (lb + 1)) =
        .ok its' ∧
      WalkStep l (lb + kWorkWindowSize) s its its' r ∧ Ready s its ∧ Ready (s + 1) its' := by
  obtain ⟨k, hk⟩ : ∃ k : ℕ, (k : Int) = s - (lb + 1) := ⟨(s - (lb + 1)).toNat, by lia⟩
  have hs : lb + 1 + (k : Int) = s := by lia
  obtain ⟨⟨rs, last⟩, hloop, h⟩ := bind_eq_ok h
  have hrs : out.restrictions = rs := by
    dsimp only at h
    split_ifs at h <;> (cases h; rfl)
  rw [restrictionAt_of_offset (by lia) k hk, hrs] at hr
  obtain ⟨its, its', hits, hits', hwalk⟩ := walkStep_of_computeRestrictionsFrom hloop hr
  have hready := createIterators_ready hacc (lb + 1)
  refine ⟨k, its, its', hs, hits, hits', hs ▸ hwalk, ?_, ?_⟩
  · exact hs ▸ ready_of_iteratorsAfter k hready (by lia) hits
  · have hready' := ready_of_iteratorsAfter (k + 1) hready (by push_cast; lia) hits'
    rwa [show lb + 1 + ((k + 1 : ℕ) : Int) = s + 1 by push_cast; lia] at hready'

theorem allVerify_elementsFor (hverifies : ∀ vc ∈ l.messages msgs, ∀ e ∈ vc.elements,
    ∀ c, e.preparedCertificate = some c → l.verifies ⟨e, c⟩ = true) (s : SeqNum) :
    l.AllVerify (l.elementsFor msgs s) := by
  intro x hx
  obtain ⟨hmem, hc⟩ := mem_certificates.1 hx
  obtain ⟨vc, hvc, hat⟩ := List.mem_filterMap.1 hmem
  exact hverifies vc hvc x.e (elementAt_some hat).1 x.c hc

/-- **The selection rule of the view change.** For `2F + 2C + 1` accepted messages whose
    certificates all verify, in every order of the messages, no assertion fails, the entry for `s`
    is what the rule selects, and the step at `s` treats every iterator exactly once: all stand at
    `s` or later before it, and later than `s` after it. -/
theorem computeRestrictions_selects (hpos : 1 ≤ l.F + l.C) (hacc : l.AcceptedMsgs msgs)
    (hcount : (l.messages msgs).length = 2 * l.F + 2 * l.C + 1)
    (hverifies : ∀ vc ∈ l.messages msgs, ∀ e ∈ vc.elements,
      ∀ c, e.preparedCertificate = some c → l.verifies ⟨e, c⟩ = true)
    {lb s : SeqNum} (hlo : lb + 1 ≤ s) (hhi : s ≤ lb + kWorkWindowSize) :
    ∃ sel, (∀ sel', Selects l (l.elementsFor msgs s) sel' ↔ sel' = sel) ∧
      ∀ msgs', (l.messages msgs').Perm (l.messages msgs) →
      ∀ arr : List Restriction, (arr.length : Int) = kWorkWindowSize →
        ∃ (out : RestrictionsOfView) (r : Restriction) (k : ℕ) (its its' : List ElementsIterator),
          l.computeRestrictions msgs' lb arr = .ok out ∧ out.restrictionAt lb s = some r ∧
          Restriction.Matches l r sel ∧ lb + 1 + k = s ∧
          l.iteratorsAfter (lb + kWorkWindowSize) k (lb + 1) (l.createIterators msgs' (lb + 1)) =
            .ok its ∧
          l.iteratorsAfter (lb + kWorkWindowSize) (k + 1) (lb + 1)
            (l.createIterators msgs' (lb + 1)) = .ok its' ∧
          its'.Perm (its.filterMap (advanced s (lb + kWorkWindowSize))) ∧
          (∀ it ∈ its, it ≠ [] ∧ ∀ e ∈ it, s ≤ e.seqNum) ∧
          ∀ it ∈ its', it ≠ [] ∧ ∀ e ∈ it, s < e.seqNum := by
  have hall := allVerify_elementsFor hverifies s
  have hlen : (l.elementsFor msgs s).length ≤ 2 * l.F + 2 * l.C + 1 := by
    rw [← hcount]
    exact List.length_filterMap_le _ _
  refine ⟨l.selection (l.elementsFor msgs s), hall.selects_iff hpos hlen, ?_⟩
  intro msgs' hmsgs arr harr
  have hacc' : l.AcceptedMsgs msgs' := fun vc hvc => hacc vc (hmsgs.mem_iff.1 hvc)
  obtain ⟨out, hout, hspec⟩ := computeRestrictions_spec hacc' lb harr
  obtain ⟨r, es, hr, hes, hmatch⟩ := hspec.entry s (by lia) hhi
  -- all orders of the elements select the same
  have hperm : (l.elementsFor msgs s).Perm es := (hes.trans (hmsgs.filterMap _)).symm
  rw [← selection_perm hperm hall.sameVerdict hlen] at hmatch
  obtain ⟨k, its, its', hs, hits, hits', hwalk, hready, hready'⟩ :=
    walkStep_of_computeRestrictions hacc' hlo hhi hout hr
  refine ⟨out, r, k, its, its', hout, hr, hmatch, hs, hits, hits', ?_, ?_, ?_⟩
  · rcases hwalk with ⟨rfl, rfl, -⟩ | ⟨hasRest, d, hstep, -⟩
    · exact List.Perm.refl _
    · exact perm_of_computeRestrictionsForSeqNum hstep
  · exact fun it hit => ⟨(hready it hit).notAtEnd, (hready it hit).reached⟩
  · exact fun it hit => ⟨(hready' it hit).notAtEnd, (hready' it hit).reached⟩

/-- Four replicas; a certificate verifies when its signature is `[1]`. -/
def logicOfFour : ViewChangeSafetyLogic := ⟨1, 0, fun _ sig => sig == [1], Digest.nullDigest⟩

/-- Two replicas report `e`. -/
def reportedTwice (e : Element) : ReplicaId → Option ViewChangeMsg
  | 0 => some ⟨0, 1, 0, [e]⟩
  | 1 => some ⟨1, 1, 0, [e]⟩
  | 2 => some ⟨2, 1, 0, []⟩
  | _ => none

theorem computeRestrictions_selects_reportedTwice :
    ∃ sel, (∀ sel', Selects logicOfFour (logicOfFour.elementsFor
        (reportedTwice ⟨1, 7#256, 0, some ⟨0, [1]⟩⟩) 1) sel' ↔ sel' = sel) ∧
      ∃ out r, logicOfFour.computeRestrictions (reportedTwice ⟨1, 7#256, 0, some ⟨0, [1]⟩⟩) 0
          newRestrictions = .ok out ∧ out.restrictionAt 0 1 = some r ∧
        Restriction.Matches logicOfFour r sel := by
  have hacc : logicOfFour.AcceptedMsgs (reportedTwice ⟨1, 7#256, 0, some ⟨0, [1]⟩⟩) := by
    unfold AcceptedMsgs
    decide
  obtain ⟨sel, hsel, hall⟩ := computeRestrictions_selects (by decide) hacc (by decide) (by decide)
    (show (0 : SeqNum) + 1 ≤ 1 by decide) (by decide)
  obtain ⟨out, r, -, -, -, hout, hr, hmatch, -⟩ := hall _ (List.Perm.refl _) newRestrictions
    newRestrictions_length
  exact ⟨sel, hsel, out, r, hout, hr, hmatch⟩

/-- Two of three accepted messages report one digest from view -1, and nobody has a certificate: the
    two elements do not count and the sequence number is not restricted. -/
theorem computeRestrictions_ignores_negative_view :
    logicOfFour.AcceptedMsgs (reportedTwice ⟨1, 7#256, -1, none⟩) ∧
      (logicOfFour.messages (reportedTwice ⟨1, 7#256, -1, none⟩)).length = 3 ∧
      certificates (logicOfFour.elementsFor (reportedTwice ⟨1, 7#256, -1, none⟩) 1) = [] ∧
      (logicOfFour.elementsFor (reportedTwice ⟨1, 7#256, -1, none⟩) 1).countP
        (fun e => e.prePrepreDigest == 7#256) = logicOfFour.F + logicOfFour.C + 1 ∧
      (7#256 : Digest) ≠ logicOfFour.nullDigest ∧
      (logicOfFour.computeRestrictions (reportedTwice ⟨1, 7#256, -1, none⟩) 0 newRestrictions).map
        (fun out => (out.restrictionAt 0 1).map (·.isNull)) = .ok (some true) := by
  exact ⟨by unfold AcceptedMsgs; decide, by decide, by decide, by decide, by decide, by decide⟩

end ViewChangeSafetyLogic

end ConcordBft
