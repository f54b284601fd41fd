import Mathlib.Order.Lattice
import Mathlib.Data.List.Induction

set_option autoImplicit false

/-! # Ordered sets that keep the first of equal keys

A set ordered by a comparison of keys, kept as its list of members in increasing order. Inserting a
member whose key is already there changes nothing, so of several members with one key the set holds
the one that was inserted first. -/

namespace OrderedSet

open List

variable {α κ : Type*}

/-- Insert `x` in front of the first larger member, unless a member of the same key is met. -/
def insert (lt : α → α → Bool) (x : α) : List α → List α
  | [] => [x]
  | y :: rest =>
    if lt x y then x :: y :: rest
    else if lt y x then y :: insert lt x rest
    else y :: rest

/-- The set of the members of a list, inserted from left to right. -/
def ofList (lt : α → α → Bool) (xs : List α) : List α :=
  xs.foldl (fun set x => insert lt x set) []

section

variable [LinearOrder κ] {lt : α → α → Bool} {key : α → κ}

theorem pairwise_insert (hlt : ∀ a b, lt a b = true ↔ key a < key b) (x : α) {set : List α}
    (h : set.Pairwise fun a b => key a < key b) :
    (insert lt x set).Pairwise (fun a b => key a < key b) ∧
      ∀ a ∈ insert lt x set, a = x ∨ a ∈ set := by
  induction set with
  | nil => simp [insert]
  | cons y rest ih =>
    obtain ⟨hy, hrest⟩ := pairwise_cons.1 h
    obtain ⟨ihp, ihm⟩ := ih hrest
    unfold insert
    split_ifs with hxy hyx
    · have hxy' := (hlt x y).1 hxy
      refine ⟨pairwise_cons.2 ⟨fun a ha => ?_, h⟩, by simp⟩
      rcases mem_cons.1 ha with rfl | ha
      · exact hxy'
      · exact lt_trans hxy' (hy a ha)
    · have hyx' := (hlt y x).1 hyx
      refine ⟨pairwise_cons.2 ⟨fun a ha => ?_, ihp⟩, fun a ha => ?_⟩
      · rcases ihm a ha with rfl | ha
        · exact hyx'
        · exact hy a ha
      · rcases mem_cons.1 ha with rfl | ha
        · simp
        · exact (ihm a ha).imp id (mem_cons_of_mem _)
    · exact ⟨h, fun a ha => Or.inr ha⟩

/-- A member is inserted exactly when its key is new. -/
theorem mem_insert_iff (hlt : ∀ a b, lt a b = true ↔ key a < key b) {x : α} {set : List α}
    (h : set.Pairwise fun a b => key a < key b) (a : α) :
    a ∈ insert lt x set ↔ a ∈ set ∨ (a = x ∧ ∀ y ∈ set, key y ≠ key x) := by
  induction set with
  | nil => simp [insert]
  | cons y rest ih =>
    obtain ⟨hy, hrest⟩ := pairwise_cons.1 h
    unfold insert
    split_ifs with hxy hyx
    · have hxy' := (hlt x y).1 hxy
      have hnew : ∀ z ∈ y :: rest, key z ≠ key x := by
        intro z hz
        rcases mem_cons.1 hz with rfl | hz
        · exact ne_of_gt hxy'
        · exact ne_of_gt (lt_trans hxy' (hy z hz))
      rw [mem_cons]
      constructor
      · rintro (rfl | ha)
        · exact Or.inr ⟨rfl, hnew⟩
        · exact Or.inl ha
      · rintro (ha | ⟨rfl, _⟩)
        · exact Or.inr ha
        · exact Or.inl rfl
    · have hyx' := (hlt y x).1 hyx
      rw [mem_cons, ih hrest, mem_cons]
      constructor
      · rintro (rfl | ha | ⟨rfl, hnew⟩)
        · simp
        · exact Or.inl (Or.inr ha)
        · refine Or.inr ⟨rfl, fun z hz => ?_⟩
          rcases mem_cons.1 hz with rfl | hz
          · exact ne_of_lt hyx'
          · exact hnew z hz
      · rintro ((rfl | ha) | ⟨rfl, hnew⟩)
        · exact Or.inl rfl
        · exact Or.inr (Or.inl ha)
        · exact Or.inr (Or.inr ⟨rfl, fun z hz => hnew z (mem_cons_of_mem _ hz)⟩)
    · -- neither is smaller, so `y` has the key of `x`
      have heq : key y = key x :=
        le_antisymm (not_lt.1 fun hc => hxy ((hlt x y).2 hc))
          (not_lt.1 fun hc => hyx ((hlt y x).2 hc))
      constructor
      · exact Or.inl
      · rintro (ha | ⟨rfl, hnew⟩)
        · exact ha
        · exact absurd heq (hnew y (mem_cons_self ..))

theorem ofList_concat (lt : α → α → Bool) (xs : List α) (x : α) :
    ofList lt (xs ++ [x]) = insert lt x (ofList lt xs) := by
  simp [ofList]

section

variable (hlt : ∀ a b, lt a b = true ↔ key a < key b)
include hlt

theorem pairwise_ofList (xs : List α) : (ofList lt xs).Pairwise fun a b => key a < key b := by
  induction xs using reverseRecOn with
  | nil => simp [ofList]
  | append_singleton xs x ih =>
    rw [ofList_concat]
    exact (pairwise_insert hlt x ih).1

/-- Every key of the list is the key of some member. -/
theorem exists_mem_ofList {xs : List α} {y : α} (hy : y ∈ xs) :
    ∃ a ∈ ofList lt xs, key a = key y := by
  induction xs using reverseRecOn with
  | nil => simp at hy
  | append_singleton xs x ih =>
    have hmem := mem_insert_iff hlt (x := x) (pairwise_ofList hlt xs)
    rw [ofList_concat]
    rcases mem_append.1 hy with hy | hy
    · obtain ⟨a, ha, hkey⟩ := ih hy
      exact ⟨a, (hmem a).2 (Or.inl ha), hkey⟩
    · obtain rfl : y = x := by simpa using hy
      by_cases hnew : ∀ z ∈ ofList lt xs, key z ≠ key y
      · exact ⟨y, (hmem y).2 (Or.inr ⟨rfl, hnew⟩), rfl⟩
      · push Not at hnew
        obtain ⟨a, ha, hkey⟩ := hnew
        exact ⟨a, (hmem a).2 (Or.inl ha), hkey⟩

/-- **The members are the first of their key.** -/
theorem mem_ofList_iff (xs : List α) (a : α) :
    a ∈ ofList lt xs ↔ ∃ pre post, xs = pre ++ a :: post ∧ ∀ y ∈ pre, key y ≠ key a := by
  induction xs using reverseRecOn generalizing a with
  | nil => simp [ofList]
  | append_singleton xs x ih =>
    rw [ofList_concat, mem_insert_iff hlt (pairwise_ofList hlt xs)]
    constructor
    · rintro (ha | ⟨rfl, hnew⟩)
      · obtain ⟨pre, post, rfl, hpre⟩ := (ih a).1 ha
        exact ⟨pre, post ++ [x], by simp, hpre⟩
      · refine ⟨xs, [], rfl, fun y hy heq => ?_⟩
        obtain ⟨z, hz, hkey⟩ := exists_mem_ofList hlt hy
        exact hnew z hz (hkey.trans heq)
    · rintro ⟨pre, post, heq, hpre⟩
      -- either `a` stands in `xs`, or it is the last one and nothing before it has its key
      rcases eq_nil_or_concat post with rfl | ⟨post', z, rfl⟩
      · obtain ⟨rfl, rfl⟩ : xs = pre ∧ x = a := by
          have h := append_inj' heq rfl
          exact ⟨h.1, by simpa using h.2⟩
        refine Or.inr ⟨rfl, fun y hy => ?_⟩
        obtain ⟨pre', post', hxs, _⟩ := (ih y).1 hy
        exact hpre y (by rw [hxs]; simp)
      · left
        refine (ih a).2 ⟨pre, post', ?_, hpre⟩
        have : xs ++ [x] = (pre ++ a :: post') ++ [z] := by simpa using heq
        exact (append_inj' this rfl).1

end

end

end OrderedSet
