import ConcordBft.ViewChangeSafetyLogic

set_option autoImplicit false

/-! # What the walk over the messages sees

For one sequence number, `computeRestrictionsForSeqNum` looks at the elements that its iterators
stand on. This module shows that these are exactly the elements of the messages for that sequence
number, in some order: skipping to the lower bound, advancing, removing and swapping iterators only
reorder them. `Ready s` is what the walk needs of the iterators when it reaches `s`; it rules out
every assertion on the way. -/

namespace ConcordBft

open Checked ViewChangeSafetyLogic ElementsIterator List

/-! ## Elements of an iterator -/

variable {s : SeqNum} {e : Element} {rest : ElementsIterator} {it : ElementsIterator}
  {t : ElementsIterator}

theorem elementAt_cons_ne (h : e.seqNum ≠ s) : elementAt s (e :: rest) = elementAt s rest := by
  simp [elementAt, h]

theorem elementAt_eq_none_of_lt (h : ∀ e ∈ it, s < e.seqNum) : elementAt s it = none := by
  simp only [elementAt, find?_eq_none]
  intro e he heq
  exact absurd (h e he) (by lia)

theorem elementAt_some (h : elementAt s it = some e) : e ∈ it ∧ e.seqNum = s := by
  refine ⟨mem_of_find?_eq_some h, ?_⟩
  simpa using find?_some h

/-- Skipping to a lower bound loses no element above it. -/
theorem elementAt_goToAtLeast {s lowerBound : SeqNum} (h : lowerBound ≤ s)
    (it : ElementsIterator) :
    elementAt s (goToAtLeast lowerBound it) = elementAt s it := by
  induction it with
  | nil => rfl
  | cons e rest ih =>
    simp only [goToAtLeast, dropWhile_cons] at ih ⊢
    by_cases hlt : e.seqNum < lowerBound
    · rw [if_pos (by simpa using hlt), ih, elementAt_cons_ne (by lia)]
    · rw [if_neg (by simpa using hlt)]

theorem SortedElements.tail (h : SortedElements (e :: rest)) : SortedElements rest :=
  (pairwise_cons.1 h).2

theorem SortedElements.head_lt (h : SortedElements (e :: rest)) :
    ∀ e' ∈ rest, e.seqNum < e'.seqNum :=
  (pairwise_cons.1 h).1

/-- In sorted order every element is at least the current one. -/
theorem SortedElements.head_le (h : SortedElements (e :: rest)) :
    ∀ e' ∈ e :: rest, e.seqNum ≤ e'.seqNum := by
  intro e' he'
  rcases mem_cons.1 he' with rfl | he'
  · exact le_refl _
  · exact le_of_lt (h.head_lt e' he')

/-! ## Iterators that have reached a sequence number -/

/-- An iterator that is not at its end, stands at `s` or later, and goes over a sorted list whose
    certificates have signature bytes. -/
structure ReadyIterator (s : SeqNum) (it : ElementsIterator) : Prop where
  sorted : SortedElements it
  notAtEnd : it ≠ []
  reached : ∀ e ∈ it, s ≤ e.seqNum
  sigs : ∀ e ∈ it, ∀ c, e.preparedCertificate = some c → c.certificateSig ≠ []

/-- All iterators have reached `s`. -/
def Ready (s : SeqNum) (its : List ElementsIterator) : Prop := ∀ it ∈ its, ReadyIterator s it

/-- The elements for `s` that a list of iterators goes over. -/
def elementsAt (s : SeqNum) (its : List ElementsIterator) : List Element :=
  its.filterMap (elementAt s)

theorem Ready.of_cons {rest : List ElementsIterator} (h : Ready s (it :: rest)) :
    ReadyIterator s it ∧ Ready s rest :=
  ⟨h it (mem_cons_self ..), fun i hi => h i (mem_cons_of_mem _ hi)⟩

/-- The current elements at `s` are the elements for `s`, and no assertion of the header fails. -/
theorem currentElements_eq {its : List ElementsIterator} (h : Ready s its) :
    currentElements s its = .ok (elementsAt s its) := by
  induction its with
  | nil => rfl
  | cons it rest ih =>
    obtain ⟨hit, hrest⟩ := h.of_cons
    obtain ⟨e, t, rfl⟩ := exists_cons_of_ne_nil hit.notAtEnd
    have hle : s ≤ e.seqNum := hit.reached e (mem_cons_self ..)
    simp only [currentElements, getCurrent, head?_cons, ih hrest, Assert, require_of hle, ok_bind]
    congr 1
    by_cases heq : e.seqNum = s
    · simp [elementsAt, elementAt, heq]
    · -- the iterator stands above `s`, so it has no element there
      have hnone : elementAt s (e :: t) = none :=
        elementAt_eq_none_of_lt fun e' he' => by
          have := hit.sorted.head_le e' he'
          lia
      rw [if_neg heq, elementsAt, elementsAt, filterMap_cons, hnone]

/-! ## Advancing -/

theorem ReadyIterator.of_lt (h : ReadyIterator s (e :: t)) (hlt : s < e.seqNum) :
    ReadyIterator (s + 1) (e :: t) := by
  refine ⟨h.sorted, h.notAtEnd, fun e' he' => ?_, h.sigs⟩
  have := h.sorted.head_le e' he'
  lia

theorem ReadyIterator.gotoNext (h : ReadyIterator s (e :: t)) (hne : t ≠ []) :
    ReadyIterator (s + 1) t := by
  refine ⟨h.sorted.tail, hne, fun e' he' => ?_, fun e' he' => h.sigs e' (mem_cons_of_mem _ he')⟩
  have h1 := h.reached e (mem_cons_self ..)
  have h2 := h.sorted.head_lt e' he'
  lia

/-- An iterator that is not needed any more has no element in the rest of the window. -/
theorem elementAt_of_not_needed {s s' upperBound : SeqNum} (h : ReadyIterator s (e :: t))
    (he : e.seqNum = s) (hlo : s < s') (hhi : s' ≤ upperBound) (hn : needed upperBound t = false) :
    elementAt s' (e :: t) = none := by
  rw [elementAt_cons_ne (by lia)]
  cases t with
  | nil => rfl
  | cons e2 t2 =>
    simp only [needed, getCurrent, head?_cons] at hn
    refine elementAt_eq_none_of_lt fun e' he' => ?_
    have := h.sorted.tail.head_le e' he'
    lia

theorem replaceByLast_perm (rest : List ElementsIterator) : (replaceByLast rest).Perm rest := by
  unfold replaceByLast
  split
  · rename_i h
    rw [getLast?_eq_none_iff.1 h]
  · rename_i last h
    have hcat : rest.dropLast ++ [last] = rest := dropLast_append_getLast? last h
    calc Perm (last :: rest.dropLast) (rest.dropLast ++ [last]) :=
          (perm_append_singleton last rest.dropLast).symm
      _ = rest := hcat

theorem Ready.perm {its its' : List ElementsIterator} (hp : its'.Perm its) (h : Ready s its) :
    Ready s its' := fun it hit => h it (hp.mem_iff.1 hit)

/-- **Advancing only reorders.** It fails no assertion, leaves all iterators beyond `s`, and keeps
    the elements for every later sequence number of the window. -/
theorem advanceIterators_spec (upperBound : SeqNum) {s : SeqNum} {its : List ElementsIterator}
    (h : Ready s its) :
    ∃ its', advanceIterators s upperBound its.length its = .ok its' ∧
      Ready (s + 1) its' ∧
      ∀ s', s < s' → s' ≤ upperBound → (elementsAt s' its').Perm (elementsAt s' its) := by
  induction hn : its.length generalizing its with
  | zero =>
    obtain rfl : its = [] := length_eq_zero_iff.1 hn
    exact ⟨[], rfl, by simp [Ready], fun _ _ _ => Perm.refl _⟩
  | succ n ih =>
    obtain ⟨it, rest, rfl⟩ := exists_cons_of_length_eq_add_one hn
    have hlen : rest.length = n := by simpa using hn
    obtain ⟨hit, hrest⟩ := h.of_cons
    obtain ⟨e, t, rfl⟩ := exists_cons_of_ne_nil hit.notAtEnd
    simp only [advanceIterators, getCurrent, head?_cons]
    by_cases hlt : s < e.seqNum
    · -- no need to advance the iterator
      obtain ⟨its', heq, hready, hperm⟩ := ih hrest hlen
      rw [if_pos hlt, heq]
      refine ⟨(e :: t) :: its', rfl, ?_, fun s' hlo hhi => ?_⟩
      · intro i hi
        rcases mem_cons.1 hi with rfl | hi
        · exact hit.of_lt hlt
        · exact hready i hi
      · unfold elementsAt
        simp only [filterMap_cons]
        cases elementAt s' (e :: t) with
        | none => exact hperm s' hlo hhi
        | some x => exact (hperm s' hlo hhi).cons x
    have hs : e.seqNum = s := by
      have := hit.reached e (mem_cons_self ..)
      lia
    rw [if_neg hlt]
    by_cases hneed :
        needed upperBound (gotoNext (e :: t)) = true
    · obtain ⟨its', heq, hready, hperm⟩ := ih hrest hlen
      have ht : t ≠ [] := by
        rintro rfl
        exact absurd hneed (by simp [needed, getCurrent, gotoNext])
      rw [if_pos hneed, heq]
      refine ⟨t :: its', rfl, ?_, fun s' hlo hhi => ?_⟩
      · intro i hi
        rcases mem_cons.1 hi with rfl | hi
        · exact hit.gotoNext ht
        · exact hready i hi
      · unfold elementsAt
        simp only [filterMap_cons, elementAt_cons_ne (show e.seqNum ≠ s' by lia)]
        cases elementAt s' t with
        | none => exact hperm s' hlo hhi
        | some x => exact (hperm s' hlo hhi).cons x
    · -- the last iterator takes the place of the removed one
      have hp := replaceByLast_perm rest
      obtain ⟨its', heq, hready, hperm⟩ := ih (hrest.perm hp) (hp.length_eq.trans hlen)
      rw [if_neg hneed, heq]
      refine ⟨its', rfl, hready, fun s' hlo hhi => ?_⟩
      have hnone := elementAt_of_not_needed hit hs hlo hhi (Bool.not_eq_true _ ▸ hneed)
      refine (hperm s' hlo hhi).trans ?_
      unfold elementsAt
      rw [filterMap_cons, hnone]
      exact hp.filterMap _

end ConcordBft
