import ConcordBft.ViewChangeSafetyLogic.Iterators
import Mathlib.Data.Prod.Lex
import Mathlib.Data.List.Count

set_option autoImplicit false

/-! # The selection for one sequence number

`selection` is what `computeRestrictionsForSeqNum` decides from the elements for a sequence number,
without iterators and assertions. Two facts about it carry the results on the view change:

* a digest wins when its certificate is selected, or when `F + C + 1` elements vote for it
  (`selection_of_certificate`, `selection_of_votes`);
* the order of the elements matters only through certificates of one view and digest with different
  verdicts (`selection_perm`). -/

namespace ConcordBft

open Checked OrderedSet Function

namespace ViewChangeSafetyLogic

variable (l : ViewChangeSafetyLogic) (minView : ViewNum) (es : List Element)

/-- The prepared certificates among the elements. -/
def certificates : List SlowElem := es.filterMap SlowElem.ofElement

/-- The certificate that is selected: the first of the ordered set that verifies. -/
def selectedCertificate : Option SlowElem :=
  (ofList SlowElemCompare (certificates es)).find? l.verifies

/-- The digest that the votes select. -/
def votedDigest : Option Digest :=
  (l.selectFast minView (fun _ => 0) es).map (·.prePrepreDigest)

/-- The digest that the elements `es` for one sequence number restrict it to. -/
def selection : Option Digest :=
  match l.votedDigest (minRelevantFastView (l.selectedCertificate es)) es with
  | some d => some d
  | none => (l.selectedCertificate es).map (·.e.prePrepreDigest)

variable {l minView es} {x : SlowElem} {es' : List Element}

/-! ## The order of the certificates -/

/-- The key that `SlowElemCompare` orders by. -/
def slowKey (x : SlowElem) : Lex (ℤᵒᵈ × ℕ) :=
  toLex (OrderDual.toDual x.c.certificateView, x.e.prePrepreDigest.toNat)

theorem slowElemCompare_iff (a b : SlowElem) :
    SlowElemCompare a b = true ↔ slowKey a < slowKey b := by
  unfold SlowElemCompare slowKey
  rw [Prod.Lex.toLex_lt_toLex]
  by_cases h : a.c.certificateView = b.c.certificateView
  · simp [h, BitVec.lt_def]
  · simp [h]

theorem slowKey_eq_iff (a b : SlowElem) :
    slowKey a = slowKey b ↔ a.c.certificateView = b.c.certificateView ∧
      a.e.prePrepreDigest = b.e.prePrepreDigest := by
  simp [slowKey, BitVec.toNat_inj]

/-- A smaller key means that the certificate's view is at least as high. -/
theorem view_le_of_slowKey_le {a b : SlowElem} (h : slowKey a ≤ slowKey b) :
    b.c.certificateView ≤ a.c.certificateView := by
  have := (Prod.Lex.toLex_le_toLex.1 h)
  rcases this with hlt | ⟨heq, _⟩
  · exact le_of_lt hlt
  · exact le_of_eq (OrderDual.toDual_inj.1 heq).symm

theorem mem_certificates : x ∈ certificates es ↔ x.e ∈ es ∧ x.e.preparedCertificate = some x.c := by
  simp only [certificates, List.mem_filterMap, SlowElem.ofElement, Option.map_eq_some_iff]
  constructor
  · rintro ⟨e, he, c, hc, rfl⟩
    exact ⟨he, hc⟩
  · rintro ⟨he, hc⟩
    exact ⟨x.e, he, x.c, hc, rfl⟩

/-- The selected certificate verifies, and no member of the set that verifies comes before it. -/
theorem selectedCertificate_some (h : l.selectedCertificate es = some x) :
    x ∈ certificates es ∧ l.verifies x = true ∧
      ∀ y ∈ ofList SlowElemCompare (certificates es), l.verifies y = true →
        slowKey x ≤ slowKey y := by
  have hsorted := pairwise_ofList slowElemCompare_iff (certificates es)
  obtain ⟨hver, pre, post, hset, hpre⟩ := List.find?_eq_some_iff_append.1 h
  have hmem : x ∈ ofList SlowElemCompare (certificates es) := by rw [hset]; simp
  refine ⟨?_, hver, fun y hy hvy => ?_⟩
  · obtain ⟨p, q, hcat, _⟩ := (mem_ofList_iff slowElemCompare_iff _ x).1 hmem
    rw [hcat]
    simp
  · rw [hset] at hsorted hy
    rcases List.mem_append.1 hy with hy | hy
    · exact absurd hvy (by simpa using hpre y hy)
    · rcases List.mem_cons.1 hy with rfl | hy
      · exact le_refl _
      · exact le_of_lt ((List.pairwise_cons.1 (List.pairwise_append.1 hsorted).2.1).1 y hy)

theorem selectedCertificate_none (h : l.selectedCertificate es = none) :
    ∀ y ∈ ofList SlowElemCompare (certificates es), l.verifies y = false := by
  intro y hy
  simpa using List.find?_eq_none.1 h y hy

/-- A certificate is *clean* when every certificate of its view and digest verifies: whichever of
    them comes first, a valid one is kept. -/
def CleanCertificate (l : ViewChangeSafetyLogic) (es : List Element) (x : SlowElem) : Prop :=
  x ∈ certificates es ∧ ∀ y ∈ certificates es, slowKey y = slowKey x → l.verifies y = true

/-- Something at least as high as a clean certificate is selected. -/
theorem selectedCertificate_of_clean (h : l.CleanCertificate es x) :
    ∃ y, l.selectedCertificate es = some y ∧ slowKey y ≤ slowKey x := by
  obtain ⟨z, hz, hkey⟩ := exists_mem_ofList slowElemCompare_iff h.1
  have hzmem : z ∈ certificates es := by
    obtain ⟨p, q, hcat, _⟩ := (mem_ofList_iff slowElemCompare_iff _ z).1 hz
    rw [hcat]
    simp
  have hver := h.2 z hzmem hkey
  cases hsel : l.selectedCertificate es with
  | none =>
    have := selectedCertificate_none hsel z hz
    rw [hver] at this
    simp at this
  | some y =>
    exact ⟨y, rfl, hkey ▸ (selectedCertificate_some hsel).2.2 z hz hver⟩

/-! ## Counting votes -/

/-- How many elements with an origin view of at least `minView` carry the digest `d`. -/
def votes (minView : ViewNum) (d : Digest) (es : List Element) : ℕ :=
  es.countP fun e => minView ≤ e.originView && e.prePrepreDigest == d

theorem votes_cons (minView : ViewNum) (d : Digest) (e : Element) (es : List Element) :
    votes minView d (e :: es) =
      votes minView d es + if minView ≤ e.originView ∧ e.prePrepreDigest = d then 1 else 0 := by
  unfold votes
  rw [List.countP_cons]
  simp

/-- A lower bound on the origin views counts at least as many elements. -/
theorem votes_anti {minView minView' : ViewNum} (h : minView ≤ minView') (d : Digest)
    (es : List Element) : votes minView' d es ≤ votes minView d es := by
  refine List.countP_mono_left fun e _ he => ?_
  simp only [Bool.and_eq_true] at he ⊢
  exact ⟨by lia, he.2⟩

/-- Votes for different digests come from different elements. -/
theorem votes_add_le (minView : ViewNum) {d d' : Digest} (hne : d ≠ d') (es : List Element) :
    votes minView d es + votes minView d' es ≤ es.length := by
  induction es with
  | nil => simp [votes]
  | cons e rest ih =>
    rw [votes_cons, votes_cons, List.length_cons]
    by_cases hd : e.prePrepreDigest = d
    · have hd' : e.prePrepreDigest ≠ d' := fun h => hne (hd.symm.trans h)
      simp only [hd', and_false, if_false]
      split_ifs <;> omega
    · simp only [hd, and_false, if_false]
      split_ifs <;> omega

/-- The counters after one more vote for `d`. -/
def countVote (counters : Digest → ℕ) (d : Digest) : Digest → ℕ :=
  Function.update counters d (counters d + 1)

/-- One step of the counting loop: the first vote for a digest is never compared. -/
theorem selectFast_cons (l : ViewChangeSafetyLogic) (minView : ViewNum) (counters : Digest → ℕ)
    (x : Element) (rest : List Element) :
    l.selectFast minView counters (x :: rest) =
      if minView ≤ x.originView then
        if counters x.prePrepreDigest ≠ 0 ∧ counters x.prePrepreDigest = l.F + l.C then some x
        else l.selectFast minView (countVote counters x.prePrepreDigest) rest
      else l.selectFast minView counters rest := by
  unfold countVote
  rw [selectFast]
  dsimp only
  split_ifs with hview hzero hreach hreach' <;> simp_all

/-- Counting an element that votes moves one vote from the list into the counters. -/
theorem countVote_add_votes {x : Element} (hview : minView ≤ x.originView) (counters : Digest → ℕ)
    (d : Digest) (rest : List Element) :
    countVote counters x.prePrepreDigest d + votes minView d rest =
      counters d + votes minView d (x :: rest) := by
  unfold countVote
  rw [votes_cons]
  by_cases hd : d = x.prePrepreDigest
  · subst hd
    rw [update_self, if_pos ⟨hview, rfl⟩]
    omega
  · rw [update_of_ne hd, if_neg (fun h => hd h.2.symm)]
    omega

theorem votes_cons_of_not {x : Element} (hview : ¬ minView ≤ x.originView) (d : Digest)
    (rest : List Element) : votes minView d (x :: rest) = votes minView d rest := by
  rw [votes_cons, if_neg (fun h => hview h.1)]
  omega

/-- A selected element has enough votes for its digest, and at least two. -/
theorem selectFast_some {counters : Digest → ℕ} {e : Element}
    (h : l.selectFast minView counters es = some e) :
    0 < l.F + l.C ∧
      l.F + l.C + 1 ≤ counters e.prePrepreDigest + votes minView e.prePrepreDigest es := by
  induction es generalizing counters with
  | nil => simp [selectFast] at h
  | cons x rest ih =>
    rw [selectFast_cons] at h
    split_ifs at h with hview hreach
    · obtain rfl : x = e := Option.some.inj h
      have := countVote_add_votes hview counters x.prePrepreDigest rest
      rw [countVote, update_self] at this
      omega
    · rw [← countVote_add_votes hview]
      exact ih h
    · rw [votes_cons_of_not hview]
      exact ih h

/-- When nothing is selected, no digest has enough votes. -/
theorem selectFast_none {counters : Digest → ℕ} (hpos : 0 < l.F + l.C)
    (hlt : ∀ d, counters d ≤ l.F + l.C) (h : l.selectFast minView counters es = none) (d : Digest) :
    counters d + votes minView d es ≤ l.F + l.C := by
  induction es generalizing counters with
  | nil => simpa [votes] using hlt d
  | cons x rest ih =>
    rw [selectFast_cons] at h
    split_ifs at h with hview hreach
    · rw [← countVote_add_votes hview]
      refine ih (fun d' => ?_) h
      have hx := hlt x.prePrepreDigest
      unfold countVote
      by_cases hd : d' = x.prePrepreDigest
      · rw [hd, update_self]
        omega
      · rw [update_of_ne hd]
        exact hlt d'
    · rw [votes_cons_of_not hview]
      exact ih hlt h

/-- **The vote rule.** Of at most `2F + 2C + 1` elements, the votes select the digest that has
    `F + C + 1` of them; with `F + C = 0` they select nothing. -/
theorem votedDigest_eq_some_iff (hlen : es.length ≤ 2 * l.F + 2 * l.C + 1) (minView : ViewNum)
    (d : Digest) :
    l.votedDigest minView es = some d ↔
      0 < l.F + l.C ∧ l.F + l.C + 1 ≤ votes minView d es := by
  unfold votedDigest
  constructor
  · intro h
    obtain ⟨e, he, rfl⟩ := Option.map_eq_some_iff.1 h
    simpa using selectFast_some he
  · rintro ⟨hpos, hvotes⟩
    cases hsel : l.selectFast minView (fun _ => 0) es with
    | none =>
      have := selectFast_none hpos (by simp) hsel d
      omega
    | some e =>
      obtain ⟨_, he⟩ := selectFast_some hsel
      -- two digests cannot both have a majority of the elements
      by_contra hne
      have hne' : e.prePrepreDigest ≠ d := by simpa using hne
      have := votes_add_le minView hne' es
      omega

/-! ## Which digest wins -/

/-- When the selected certificate carries `d`, only enough votes for another digest can win over
    it. -/
theorem selection_of_selected {y : SlowElem} {d : Digest}
    (hy : l.selectedCertificate es = some y) (hd : y.e.prePrepreDigest = d)
    (hother : ∀ d' ≠ d, votes (y.c.certificateView + 1) d' es ≤ l.F + l.C) :
    l.selection es = some d := by
  unfold selection
  rw [hy]
  cases hv : l.votedDigest (minRelevantFastView (some y)) es with
  | none => simp [hd]
  | some d' =>
    by_contra hne
    have hne' : d' ≠ d := by simpa using hne
    have hvotes : l.F + l.C + 1 ≤ votes (y.c.certificateView + 1) d' es := by
      obtain ⟨e, he, rfl⟩ := Option.map_eq_some_iff.1 hv
      simpa [minRelevantFastView] using (selectFast_some he).2
    have := hother d' hne'
    omega

/-- **A certified digest wins.** A clean certificate for `d` of view `v` or later, no valid
    certificate for another digest from `v` on, and too few votes for other digests from `v` on. -/
theorem selection_of_certificate {x : SlowElem} {v : ViewNum} {d : Digest}
    (hx : l.CleanCertificate es x) (hview : v ≤ x.c.certificateView)
    (hcert : ∀ y ∈ certificates es, l.verifies y = true → v ≤ y.c.certificateView →
      y.e.prePrepreDigest = d)
    (hother : ∀ d' ≠ d, votes v d' es ≤ l.F + l.C) : l.selection es = some d := by
  obtain ⟨y, hy, hkey⟩ := selectedCertificate_of_clean hx
  obtain ⟨hmem, hver, _⟩ := selectedCertificate_some hy
  have hyview : v ≤ y.c.certificateView := le_trans hview (view_le_of_slowKey_le hkey)
  refine selection_of_selected hy (hcert y hmem hver hyview) fun d' hd' => ?_
  exact le_trans (votes_anti (by lia) d' es) (hother d' hd')

/-- **A voted digest wins.** Enough votes for `d` from view `v` on, and no valid certificate for
    another digest from `v` on. -/
theorem selection_of_votes {v : ViewNum} {d : Digest} (hv0 : 0 ≤ v) (hpos : 0 < l.F + l.C)
    (hlen : es.length ≤ 2 * l.F + 2 * l.C + 1) (hvotes : l.F + l.C + 1 ≤ votes v d es)
    (hcert : ∀ y ∈ certificates es, l.verifies y = true → v ≤ y.c.certificateView →
      y.e.prePrepreDigest = d) : l.selection es = some d := by
  -- from view `v` on, the other digests share what is left of the elements
  have hother : ∀ d' ≠ d, votes v d' es ≤ l.F + l.C := by
    intro d' hd'
    have := votes_add_le v hd' es
    omega
  have hvoted : ∀ minView, minView ≤ v → l.votedDigest minView es = some d := fun minView hle =>
    (votedDigest_eq_some_iff hlen minView d).2 ⟨hpos, le_trans hvotes (votes_anti hle d es)⟩
  cases hy : l.selectedCertificate es with
  | none =>
    unfold selection
    rw [hy, hvoted _ (by simpa [minRelevantFastView] using hv0)]
  | some y =>
    obtain ⟨hmem, hver, _⟩ := selectedCertificate_some hy
    by_cases hyview : v ≤ y.c.certificateView
    · refine selection_of_selected hy (hcert y hmem hver hyview) fun d' hd' => ?_
      exact le_trans (votes_anti (by lia) d' es) (hother d' hd')
    · unfold selection
      rw [hvoted _ (by simp only [minRelevantFastView]; lia)]

/-! ## Independence of the order -/

/-- Certificates of one view and digest have the same verdict. -/
def SameVerdict (l : ViewChangeSafetyLogic) (es : List Element) : Prop :=
  ∀ x ∈ certificates es, ∀ y ∈ certificates es, slowKey x = slowKey y → l.verifies x = l.verifies y

section

variable (hp : es.Perm es') (h : l.SameVerdict es)
include hp h

theorem SameVerdict.perm : l.SameVerdict es' := by
  have hmem : ∀ x, x ∈ certificates es' → x ∈ certificates es := fun x hx =>
    (hp.filterMap _).mem_iff.2 hx
  exact fun x hx y hy => h x (hmem x hx) y (hmem y hy)

/-- Of two orders of the elements, the one selects a certificate at least as high as the other. -/
theorem selectedCertificate_perm_le (hx : l.selectedCertificate es = some x) :
    ∃ y, l.selectedCertificate es' = some y ∧ slowKey y ≤ slowKey x := by
  obtain ⟨hmem, hver, _⟩ := selectedCertificate_some hx
  have hmem' : x ∈ certificates es' := (hp.filterMap _).mem_iff.1 hmem
  exact selectedCertificate_of_clean
    ⟨hmem', fun y hy hkey => (h.perm hp y hy x hmem' hkey).trans hver⟩

theorem selectedCertificate_perm :
    (l.selectedCertificate es).map slowKey = (l.selectedCertificate es').map slowKey := by
  cases hx : l.selectedCertificate es with
  | none =>
    cases hy : l.selectedCertificate es' with
    | none => rfl
    | some y =>
      obtain ⟨z, hz, _⟩ := selectedCertificate_perm_le hp.symm (h.perm hp) hy
      rw [hx] at hz
      simp at hz
  | some x =>
    obtain ⟨y, hy, hle⟩ := selectedCertificate_perm_le hp h hx
    obtain ⟨z, hz, hle'⟩ := selectedCertificate_perm_le hp.symm (h.perm hp) hy
    obtain rfl : x = z := Option.some.inj (hx.symm.trans hz)
    rw [hy, Option.map_some, Option.map_some, le_antisymm hle' hle]

/-- **The order of the elements does not matter** when certificates of one view and digest have the
    same verdict. -/
theorem selection_perm (hlen : es.length ≤ 2 * l.F + 2 * l.C + 1) :
    l.selection es = l.selection es' := by
  have hkey := selectedCertificate_perm hp h
  have hview : minRelevantFastView (l.selectedCertificate es) =
      minRelevantFastView (l.selectedCertificate es') := by
    cases hx : l.selectedCertificate es <;> cases hy : l.selectedCertificate es' <;>
      simp_all [minRelevantFastView, slowKey_eq_iff]
  have hdigest : (l.selectedCertificate es).map (·.e.prePrepreDigest) =
      (l.selectedCertificate es').map (·.e.prePrepreDigest) := by
    cases hx : l.selectedCertificate es <;> cases hy : l.selectedCertificate es' <;>
      simp_all [slowKey_eq_iff]
  have hvoted : ∀ minView, l.votedDigest minView es = l.votedDigest minView es' := by
    intro minView
    refine Option.ext fun d => ?_
    rw [votedDigest_eq_some_iff hlen, votedDigest_eq_some_iff (hp.length_eq ▸ hlen), votes, votes,
      hp.countP_eq]
  unfold selection
  rw [hview, hdigest, hvoted]

end

end ViewChangeSafetyLogic

end ConcordBft
