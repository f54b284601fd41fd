import Mathlib.Data.Finset.Card

set_option autoImplicit false

/-! # Quorums

Two sets of processes that are large enough meet in more processes than can be faulty. `faulty` is
any set of processes whose size is bounded; what is left of an intersection outside of it is
correct. -/

namespace Quorum

variable {α : Type*} [DecidableEq α]

/-- **Quorum intersection.** Of `P` and `Q` within a universe of `n` processes, at least
    `|P| + |Q| - n - f` common members are not among the at most `f` faulty ones. -/
theorem card_inter_sdiff {U P Q faulty : Finset α} {n f k : ℕ} (hP : P ⊆ U) (hQ : Q ⊆ U)
    (hU : U.card ≤ n) (hf : faulty.card ≤ f) (hsize : n + f + k ≤ P.card + Q.card) :
    k ≤ ((P ∩ Q) \ faulty).card := by
  have hunion : (P ∪ Q).card ≤ n := le_trans (Finset.card_le_card (Finset.union_subset hP hQ)) hU
  have hinter := Finset.card_union_add_card_inter P Q
  have hsdiff := Finset.le_card_sdiff faulty (P ∩ Q)
  omega

/-- Two large enough sets have a common member that is not faulty. -/
theorem exists_correct_mem_inter {U P Q faulty : Finset α} {n f : ℕ} (hP : P ⊆ U) (hQ : Q ⊆ U)
    (hU : U.card ≤ n) (hf : faulty.card ≤ f) (hsize : n + f + 1 ≤ P.card + Q.card) :
    ∃ i, i ∈ P ∧ i ∈ Q ∧ i ∉ faulty := by
  have hpos := card_inter_sdiff hP hQ hU hf hsize
  obtain ⟨i, hi⟩ := Finset.card_pos.1 (Nat.lt_of_lt_of_le Nat.zero_lt_one hpos)
  rw [Finset.mem_sdiff, Finset.mem_inter] at hi
  exact ⟨i, hi.1.1, hi.1.2, hi.2⟩

/-- Counting reports counts reporters: the reports with a property, collected from the processes
    `0 .. n - 1`, are as many as the processes that have such a report. -/
theorem countP_filterMap_range {β : Type*} (n : ℕ) (report : ℕ → Option β) (p : β → Bool) :
    ((List.range n).filterMap report).countP p =
      ((Finset.range n).filter fun i => (report i).any p = true).card := by
  induction n with
  | zero => simp
  | succ n ih =>
    rw [List.range_succ, List.filterMap_append, List.countP_append, ih, Finset.range_add_one,
      Finset.filter_insert]
    cases h : report n with
    | none => simp [h]
    | some b => by_cases hb : p b = true <;> simp [h, hb]

end Quorum
