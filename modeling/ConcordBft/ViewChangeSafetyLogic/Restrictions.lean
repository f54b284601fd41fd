import ConcordBft.ViewChangeSafetyLogic.Selection

set_option autoImplicit false

/-! # What `computeRestrictions` returns

For accepted messages `computeRestrictions` fails no assertion. Its entry for a sequence number of
the window is the selection from the elements of the messages for that number, taken in an order
that depends on the lower bound (`computeRestrictions_spec`). -/

namespace ConcordBft

open Checked ElementsIterator List

namespace ViewChangeSafetyLogic

variable {l : ViewChangeSafetyLogic} {its : List ElementsIterator}
  {msgs : ReplicaId → Option ViewChangeMsg} {it : ElementsIterator} {e : Element}

/-! ## One sequence number -/

theorem checkSlowPathCertificates_eq {s : SeqNum} {set : List SlowElem}
    (hs : ∀ x ∈ set, x.e.seqNum = s)
    (hsorted : set.Pairwise fun a b => slowKey a < slowKey b) (last : Option SlowElem)
    (hlast : ∀ x ∈ last, x.e.seqNum = s ∧ ∀ y ∈ set, slowKey x < slowKey y) :
    checkSlowPathCertificates last set = .ok true := by
  induction set generalizing last with
  | nil => cases last <;> rfl
  | cons y rest ih =>
    obtain ⟨hy, hrest⟩ := pairwise_cons.1 hsorted
    have hnext : checkSlowPathCertificates (some y) rest = .ok true := by
      refine ih (fun x hx => hs x (mem_cons_of_mem _ hx)) hrest (some y) ?_
      intro x hx
      obtain rfl : y = x := Option.some.inj hx
      exact ⟨hs y (mem_cons_self ..), hy⟩
    cases last with
    | none => exact hnext
    | some x =>
      obtain ⟨hxs, hlt⟩ := hlast x rfl
      have hle : y.c.certificateView ≤ x.c.certificateView :=
        view_le_of_slowKey_le (le_of_lt (hlt y (mem_cons_self ..)))
      have hseq : y.e.seqNum = x.e.seqNum := (hs y (mem_cons_self ..)).trans hxs.symm
      simp only [checkSlowPathCertificates, if_neg (not_lt.2 hle), hnext, Assert,
        require_of hseq]
      split_ifs <;> rfl

theorem selectSlow_eq {s : SeqNum} {set : List SlowElem} (hs : ∀ x ∈ set, x.e.seqNum = s)
    (hsig : ∀ x ∈ set, x.c.certificateSig ≠ []) :
    l.selectSlow s set = .ok (set.find? l.verifies) := by
  induction set with
  | nil => rfl
  | cons x rest ih =>
    have hx : s = x.e.seqNum := (hs x (mem_cons_self ..)).symm
    have hrest := ih (fun y hy => hs y (mem_cons_of_mem _ hy))
      (fun y hy => hsig y (mem_cons_of_mem _ hy))
    simp only [selectSlow, Assert, require_of hx, require_of (hsig x (mem_cons_self ..)),
      ok_bind, hrest]
    by_cases hv : l.verifies x = true
    · simp [hv]
      rfl
    · simp [hv]

theorem mem_elementsAt {s : SeqNum} (he : e ∈ elementsAt s its) :
    e.seqNum = s ∧ ∃ it ∈ its, e ∈ it := by
  obtain ⟨it, hit, heq⟩ := mem_filterMap.1 he
  obtain ⟨hmem, hs⟩ := elementAt_some heq
  exact ⟨hs, it, hit, hmem⟩

/-- **One sequence number.** No assertion fails, the result is the selection from the elements for
    `s`, and the iterators are ready for the next one. -/
theorem computeRestrictionsForSeqNum_spec {s upperBound : SeqNum} (h : Ready s its) (hne : its ≠ [])
    (hle : s ≤ upperBound) :
    ∃ its', l.computeRestrictionsForSeqNum s its upperBound =
        .ok ((l.selection (elementsAt s its)).isSome,
          (l.selection (elementsAt s its)).getD Digest.zero, its') ∧
      Ready (s + 1) its' ∧
      ∀ s', s < s' → s' ≤ upperBound → (elementsAt s' its').Perm (elementsAt s' its) := by
  obtain ⟨its', hadv, hready, hperm⟩ := advanceIterators_spec upperBound h
  refine ⟨its', ?_, hready, hperm⟩
  have hset : ∀ x ∈ OrderedSet.ofList SlowElemCompare (certificates (elementsAt s its)),
      x.e.seqNum = s ∧ x.c.certificateSig ≠ [] := by
    intro x hx
    obtain ⟨p, q, hcat, _⟩ := (OrderedSet.mem_ofList_iff slowElemCompare_iff _ x).1 hx
    have hmem : x ∈ certificates (elementsAt s its) := by rw [hcat]; simp
    obtain ⟨he, hc⟩ := mem_certificates.1 hmem
    obtain ⟨hs, it, hit, heit⟩ := mem_elementsAt he
    exact ⟨hs, (h it hit).sigs x.e heit x.c hc⟩
  have hcheck := checkSlowPathCertificates_eq (fun x hx => (hset x hx).1)
    (OrderedSet.pairwise_ofList slowElemCompare_iff _) none (by simp)
  have hslow := selectSlow_eq (l := l) (fun x hx => (hset x hx).1) (fun x hx => (hset x hx).2)
  have hsel : (OrderedSet.ofList SlowElemCompare (certificates (elementsAt s its))).find? l.verifies =
      l.selectedCertificate (elementsAt s its) := rfl
  rw [hsel] at hslow
  unfold computeRestrictionsForSeqNum
  simp only [Assert, require_of hne, require_of hle, currentElements_eq h]
  simp only [show (elementsAt s its).filterMap SlowElem.ofElement =
    certificates (elementsAt s its) from rfl, hcheck, hslow, hadv, ok_bind]
  -- the last branch returns the voted digest, else the certified one
  unfold selection votedDigest
  cases hf : l.selectFast (minRelevantFastView (l.selectedCertificate (elementsAt s its)))
      (fun _ => 0) (elementsAt s its) with
  | some e => rfl
  | none =>
    cases hc : l.selectedCertificate (elementsAt s its) with
    | some x => rfl
    | none => rfl

/-! ## The loop over the window -/

/-- The entry that a selection leaves in the array: it restricts the sequence number to the selected
    digest, unless that is the null digest. -/
def Restriction.Matches (l : ViewChangeSafetyLogic) (r : Restriction) (sel : Option Digest) : Prop :=
  if sel = none ∨ sel = some l.nullDigest then r.isNull = true
  else r.isNull = false ∧ sel = some r.digest

theorem matches_of_selection (sel : Option Digest) :
    Restriction.Matches l
      ⟨sel.getD Digest.zero, !(sel.isSome && sel.getD Digest.zero != l.nullDigest)⟩ sel := by
  unfold Restriction.Matches
  cases sel with
  | none => simp
  | some d => by_cases hd : d = l.nullDigest <;> simp [hd]

/-- What the loop leaves behind, from `cur` to the upper bound of the window. -/
structure LoopResult (l : ViewChangeSafetyLogic) (cur : SeqNum) (its : List ElementsIterator)
    (last : SeqNum) (n : ℕ) (out : List Restriction) (last' : SeqNum) : Prop where
  length_eq : out.length = n
  entry : ∀ (k : ℕ) (r : Restriction), out[k]? = some r →
    ∃ es, es.Perm (elementsAt (cur + (k : Int)) its) ∧ Restriction.Matches l r (l.selection es)
  below_last : ∀ (k : ℕ) (r : Restriction), out[k]? = some r → r.isNull = false → cur + (k : Int) ≤ last'
  last_eq : last' = last ∨ ∃ (k : ℕ) (r : Restriction), out[k]? = some r ∧ r.isNull = false ∧
    last' = cur + (k : Int)

/-- No iterator, no restriction: the rest of the array is reset. -/
theorem LoopResult.reset (cur last : SeqNum) (arr : List Restriction) :
    LoopResult l cur [] last arr.length (arr.map fun r => { r with isNull := true }) last := by
  have hnull : ∀ (k : ℕ) (r : Restriction),
      (arr.map fun r => { r with isNull := true })[k]? = some r → r.isNull = true := by
    intro k r hr
    rw [getElem?_map, Option.map_eq_some_iff] at hr
    obtain ⟨r0, _, rfl⟩ := hr
    rfl
  refine ⟨by simp, fun k r hr => ⟨[], Perm.refl _, ?_⟩, fun k r hr hn => ?_, Or.inl rfl⟩
  · have : l.selection [] = none := rfl
    simp [Restriction.Matches, this, hnull k r hr]
  · rw [hnull k r hr] at hn
    simp at hn

theorem computeRestrictionsFrom_spec (upperBound cur last : SeqNum) (arr : List Restriction)
    (h : Ready cur its) (hlen : cur + (arr.length : Int) = upperBound + 1) :
    ∃ out last', l.computeRestrictionsFrom upperBound cur its last arr = .ok (out, last') ∧
      LoopResult l cur its last arr.length out last' := by
  induction arr generalizing cur its last with
  | nil =>
    refine ⟨[], last, rfl, rfl, ?_, ?_, Or.inl rfl⟩ <;> simp
  | cons r rest ih =>
    by_cases hne : its = []
    · subst hne
      exact ⟨_, last, by simp [computeRestrictionsFrom]; rfl, LoopResult.reset cur last (r :: rest)⟩
    rw [length_cons] at hlen
    obtain ⟨its', hstep, hready, hperm⟩ :=
      computeRestrictionsForSeqNum_spec (l := l) h hne (show cur ≤ upperBound by lia)
    generalize hsel : l.selection (elementsAt cur its) = sel at hstep
    have hm := matches_of_selection (l := l) sel
    generalize hres : (sel.isSome && sel.getD Digest.zero != l.nullDigest) = restricted at hm
    obtain ⟨out, last', hloop, hrest⟩ :=
      ih (cur + 1) (if restricted then cur else last) hready (by lia)
    refine ⟨⟨sel.getD Digest.zero, !restricted⟩ :: out, last', ?_, ?_⟩
    · simp only [computeRestrictionsFrom, if_neg hne, hstep, ok_bind, hres, hloop]
      rfl
    refine ⟨by simp [hrest.length_eq], fun k r hk => ?_, fun k r hk hn => ?_, ?_⟩
    · cases k with
      | zero =>
        obtain rfl : _ = r := Option.some.inj hk
        refine ⟨elementsAt cur its, by simp, ?_⟩
        rw [hsel]
        exact hm
      | succ k =>
        have hk' : out[k]? = some r := by simpa using hk
        have hlt : k < out.length := (List.getElem?_eq_some_iff.1 hk').1
        obtain ⟨es, hes, hmatch⟩ := hrest.entry k r hk'
        refine ⟨es, hes.trans ?_, hmatch⟩
        have hcast : cur + 1 + (k : Int) = cur + ((k + 1 : ℕ) : Int) := by push_cast; lia
        rw [hcast]
        refine hperm _ (by push_cast; lia) ?_
        have := hrest.length_eq
        lia
    · cases k with
      | zero =>
        obtain rfl : _ = r := Option.some.inj hk
        obtain rfl : restricted = true := by simpa using hn
        -- from here on the last restricted number is at least `cur`
        rcases hrest.last_eq with heq | ⟨k, _, _, _, heq⟩
        · simp [heq]
        · lia
      | succ k =>
        have hk' : out[k]? = some r := by simpa using hk
        have := hrest.below_last k r hk' hn
        lia
    · rcases hrest.last_eq with heq | ⟨k, r', hk, hn, heq⟩
      · by_cases hr : restricted = true
        · refine Or.inr ⟨0, _, rfl, by simp [hr], ?_⟩
          rw [heq, if_pos hr]
          simp
        · left
          rw [heq, if_neg hr]
      · refine Or.inr ⟨k + 1, r', by simpa using hk, hn, ?_⟩
        lia

/-! ## The result -/

/-- The elements of the messages for sequence number `s`. -/
def elementsFor (l : ViewChangeSafetyLogic) (msgs : ReplicaId → Option ViewChangeMsg)
    (s : SeqNum) : List Element :=
  (l.messages msgs).filterMap fun vc => elementAt s vc.elements

/-- All messages pass `checkElements` as lists. Accepted bytes stand for such a message where the
    iterator can go through them, that is, where no certificate is too long. -/
def AcceptedMsgs (l : ViewChangeSafetyLogic) (msgs : ReplicaId → Option ViewChangeMsg) : Prop :=
  ∀ vc ∈ l.messages msgs, vc.checkElements = true

theorem mem_goToAtLeast {lowerBound : SeqNum} (he : e ∈ goToAtLeast lowerBound it) : e ∈ it :=
  (dropWhile_sublist _).subset he

/-- A sorted list skipped to a lower bound has only elements above it. -/
theorem le_of_mem_goToAtLeast {lowerBound : SeqNum} (hs : SortedElements it)
    (he : e ∈ goToAtLeast lowerBound it) : lowerBound ≤ e.seqNum := by
  induction it with
  | nil => simp [goToAtLeast] at he
  | cons x rest ih =>
    simp only [goToAtLeast, dropWhile_cons] at ih he
    split_ifs at he with hlt
    · exact ih hs.tail he
    · have hx : lowerBound ≤ x.seqNum := by simpa using hlt
      exact le_trans hx (hs.head_le e he)

/-- Skipping finds every element at the lower bound or above. -/
theorem mem_goToAtLeast_of_le (lowerBound : SeqNum) (he : e ∈ it) (hle : lowerBound ≤ e.seqNum) :
    e ∈ goToAtLeast lowerBound it := by
  induction it with
  | nil => exact he
  | cons x rest ih =>
    simp only [goToAtLeast, dropWhile_cons] at ih ⊢
    split_ifs with hlt
    · rcases mem_cons.1 he with rfl | he
      · exact absurd hle (by lia)
      · exact ih he
    · exact he

theorem createIterators_ready (hacc : l.AcceptedMsgs msgs) (lowerBound : SeqNum) :
    Ready lowerBound (l.createIterators msgs lowerBound) := by
  intro it hit
  obtain ⟨hit, hne⟩ := mem_filter.1 hit
  obtain ⟨vc, hvc, rfl⟩ := mem_map.1 hit
  have hsorted := ViewChangeMsg.sorted_of_checkElements (hacc vc hvc)
  refine ⟨hsorted.sublist (dropWhile_sublist _), ?_, fun e he => ?_, fun e he c hc => ?_⟩
  · simpa [atEnd] using hne
  · exact le_of_mem_goToAtLeast hsorted he
  · exact (ViewChangeMsg.accepted_of_checkElements (hacc vc hvc) (mem_goToAtLeast he)).cert_sig c hc

/-- The iterators go over the elements of the messages, from the lower bound on. -/
theorem elementsAt_createIterators (msgs : ReplicaId → Option ViewChangeMsg)
    {lowerBound s : SeqNum} (hle : lowerBound ≤ s) :
    elementsAt s (l.createIterators msgs lowerBound) = l.elementsFor msgs s := by
  unfold elementsAt createIterators elementsFor
  induction l.messages msgs with
  | nil => rfl
  | cons vc rest ih =>
    have heq := elementAt_goToAtLeast hle vc.elements
    rw [map_cons, filter_cons, filterMap_cons, ← heq]
    split_ifs with hend
    · rw [filterMap_cons, ih]
    · have hnil : goToAtLeast lowerBound vc.elements = [] := by
        simpa [atEnd] using hend
      rw [hnil, ih]
      rfl

/-- Without iterators no message has an element in or above the window. -/
theorem createIterators_eq_nil_iff (msgs : ReplicaId → Option ViewChangeMsg) (lowerBound : SeqNum) :
    l.createIterators msgs lowerBound = [] → ∀ vc ∈ l.messages msgs, ∀ e ∈ vc.elements,
      e.seqNum < lowerBound := by
  intro h vc hvc e he
  by_contra hlt
  have hmem : goToAtLeast lowerBound vc.elements ∈
      l.createIterators msgs lowerBound := by
    refine mem_filter.2 ⟨mem_map.2 ⟨vc, hvc, rfl⟩, ?_⟩
    have := ne_nil_of_mem (mem_goToAtLeast_of_le lowerBound he (by lia))
    simpa [atEnd] using this
  rw [h] at hmem
  simp at hmem

/-- What `computeRestrictions` returns for the lower bound `lb`. -/
structure RestrictionsSpec (l : ViewChangeSafetyLogic) (msgs : ReplicaId → Option ViewChangeMsg)
    (lb : SeqNum) (out : RestrictionsOfView) : Prop where
  length_eq : (out.restrictions.length : Int) = kWorkWindowSize
  entry : ∀ s, lb < s → s ≤ lb + kWorkWindowSize →
    ∃ r es, out.restrictionAt lb s = some r ∧ es.Perm (l.elementsFor msgs s) ∧
      Restriction.Matches l r (l.selection es)
  range : (out.minRestrictedSeqNum = 0 ∧ out.maxRestrictedSeqNum = 0 ∧
      ∀ vc ∈ l.messages msgs, ∀ e ∈ vc.elements, e.seqNum ≤ lb) ∨
    (out.minRestrictedSeqNum = lb + 1 ∧
      (out.maxRestrictedSeqNum = lb + kWorkWindowSize ∨
        out.maxRestrictedSeqNum = lb + kWorkWindowSize - checkpointWindowSize))
  restricted_le : ∀ s r, lb < s → s ≤ lb + kWorkWindowSize → out.restrictionAt lb s = some r →
    r.isNull = false → out.minRestrictedSeqNum = lb + 1 ∧ s ≤ out.maxRestrictedSeqNum

/-- An entry is in the array exactly when its number is in the window. -/
theorem restrictionAt_of_offset {out : RestrictionsOfView} {lb s : SeqNum} (hlo : lb < s) (k : ℕ)
    (hk : (k : Int) = s - (lb + 1)) : out.restrictionAt lb s = out.restrictions[k]? := by
  have : (s - (lb + 1)).toNat = k := by lia
  rw [RestrictionsOfView.restrictionAt, this]

/-- **`computeRestrictions` on accepted messages.** It returns, and what it returns is given by the
    selection from the elements for each sequence number. -/
theorem computeRestrictions_spec (hacc : l.AcceptedMsgs msgs) (lb : SeqNum) {arr : List Restriction}
    (harr : (arr.length : Int) = kWorkWindowSize) :
    ∃ out, l.computeRestrictions msgs lb arr = .ok out ∧ RestrictionsSpec l msgs lb out := by
  obtain ⟨rs, last, hloop, hres⟩ := computeRestrictionsFrom_spec (l := l)
    (lb + kWorkWindowSize) (lb + 1) 0 arr (createIterators_ready hacc (lb + 1)) (by lia)
  -- the facts about the array hold whatever the restricted range is
  have hentry : ∀ mn mx s, lb < s → s ≤ lb + kWorkWindowSize →
      ∃ r es, (RestrictionsOfView.mk mn mx rs).restrictionAt lb s = some r ∧
        es.Perm (l.elementsFor msgs s) ∧ Restriction.Matches l r (l.selection es) := by
    intro mn mx s hlo hhi
    obtain ⟨k, hk⟩ : ∃ k : ℕ, (k : Int) = s - (lb + 1) := ⟨(s - (lb + 1)).toNat, by lia⟩
    have hlt : k < rs.length := by
      rw [hres.length_eq]
      lia
    obtain ⟨es, hes, hmatch⟩ := hres.entry k _ (getElem?_eq_getElem hlt)
    have hcast : lb + 1 + (k : Int) = s := by lia
    rw [hcast, elementsAt_createIterators msgs (show lb + 1 ≤ s by lia)] at hes
    refine ⟨_, es, ?_, hes, hmatch⟩
    rw [restrictionAt_of_offset hlo k hk]
    simp
  have hbelow : ∀ mn mx s r, lb < s → (RestrictionsOfView.mk mn mx rs).restrictionAt lb s = some r →
      r.isNull = false → s ≤ last := by
    intro mn mx s r hlo hr hn
    obtain ⟨k, hk⟩ : ∃ k : ℕ, (k : Int) = s - (lb + 1) := ⟨(s - (lb + 1)).toNat, by lia⟩
    rw [restrictionAt_of_offset hlo k hk] at hr
    have := hres.below_last k r hr hn
    lia
  have hlen : (rs.length : Int) = kWorkWindowSize := by rw [hres.length_eq]; exact harr
  unfold computeRestrictions
  simp only [hloop, ok_bind]
  by_cases hnil : l.createIterators msgs (lb + 1) = []
  · -- no elements: every entry is null
    have hbelowLb : ∀ vc ∈ l.messages msgs, ∀ e ∈ vc.elements, e.seqNum ≤ lb := by
      intro vc hvc e he
      have := createIterators_eq_nil_iff msgs (lb + 1) hnil vc hvc e he
      lia
    rw [if_pos hnil]
    refine ⟨_, rfl, hlen, hentry 0 0, Or.inl ⟨rfl, rfl, hbelowLb⟩, ?_⟩
    intro s r hlo hhi hr hn
    obtain ⟨r', es, hr', hes, hmatch⟩ := hentry 0 0 s hlo hhi
    obtain rfl : r = r' := Option.some.inj (hr.symm.trans hr')
    have hempty : l.elementsFor msgs s = [] := by
      refine filterMap_eq_nil_iff.2 fun vc hvc => ?_
      simp only [elementAt, find?_eq_none]
      intro e he heq
      have := hbelowLb vc hvc e he
      lia
    rw [hempty] at hes
    obtain rfl : es = [] := perm_nil.1 hes
    have hsel : l.selection [] = none := rfl
    rw [Restriction.Matches, hsel, hn] at hmatch
    simp at hmatch
  · rw [if_neg hnil]
    split_ifs with hpatch
    · refine ⟨_, rfl, hlen, hentry _ _, Or.inr ⟨rfl, Or.inr rfl⟩, fun s r hlo hhi hr hn => ⟨rfl, ?_⟩⟩
      exact le_trans (hbelow _ _ s r hlo hr hn) hpatch.2
    · exact ⟨_, rfl, hlen, hentry _ _, Or.inr ⟨rfl, Or.inl rfl⟩,
        fun s r hlo hhi hr hn => ⟨rfl, hhi⟩⟩

end ViewChangeSafetyLogic

end ConcordBft
