import Mathlib.Data.Finset.Card

set_option autoImplicit false

/-! # Dictionaries in insertion order

A dictionary is the list of its entries in the order in which their keys were first set; setting a
key again changes the entry in its place. `tally` counts the values of a list in this way. -/

namespace Dict

open List

variable {κ ν : Type*} [DecidableEq κ]

/-- Sets the value of a key. -/
def set (k : κ) (v : ν) : List (κ × ν) → List (κ × ν)
  | [] => [(k, v)]
  | e :: rest => if e.1 = k then (k, v) :: rest else e :: set k v rest

/-- The value of a key. -/
def get? (d : List (κ × ν)) (k : κ) : Option ν := (d.find? fun e => e.1 = k).map (·.2)

/-- The value of a key, or a default. -/
def getD (d : List (κ × ν)) (k : κ) (default : ν) : ν := (get? d k).getD default

variable {k : κ} {v : ν} {d : List (κ × ν)} {e : κ × ν}

theorem keys_set (k : κ) (v : ν) (d : List (κ × ν)) :
    (set k v d).map (·.1) = if k ∈ d.map (·.1) then d.map (·.1) else d.map (·.1) ++ [k] := by
  induction d with
  | nil => rfl
  | cons e rest ih =>
    unfold set
    by_cases hkey : e.1 = k
    · simp [hkey]
    · rw [if_neg hkey, map_cons, ih, map_cons]
      by_cases hmem : k ∈ rest.map (·.1)
      · rw [if_pos hmem, if_pos (mem_cons_of_mem _ hmem)]
      · have hnot : k ∉ e.1 :: rest.map (·.1) := by
          rw [mem_cons, not_or]
          exact ⟨Ne.symm hkey, hmem⟩
        rw [if_neg hmem, if_neg hnot]
        rfl

theorem nodup_keys_set (h : (d.map (·.1)).Nodup) : ((set k v d).map (·.1)).Nodup := by
  rw [keys_set]
  split_ifs with hmem
  · exact h
  · exact nodup_append.2 ⟨h, nodup_singleton k, fun a ha b hb hab =>
      hmem (by rwa [hab, mem_singleton.1 hb] at ha)⟩

theorem mem_set (h : e ∈ set k v d) : e = (k, v) ∨ e ∈ d := by
  induction d with
  | nil => exact Or.inl (mem_singleton.1 h)
  | cons e' rest ih =>
    unfold set at h
    split_ifs at h
    · exact (mem_cons.1 h).imp_right (mem_cons_of_mem e')
    · rcases mem_cons.1 h with rfl | h
      · simp
      · exact (ih h).imp_right (mem_cons_of_mem e')

theorem get?_set (k : κ) (v : ν) (d : List (κ × ν)) (k' : κ) :
    get? (set k v d) k' = if k' = k then some v else get? d k' := by
  unfold get?
  induction d with
  | nil =>
    by_cases hkey : k = k'
    · simp [set, hkey]
    · simp [set, hkey, Ne.symm hkey]
  | cons e rest ih =>
    unfold set
    by_cases he : e.1 = k
    · subst he
      by_cases hkey : e.1 = k'
      · simp [hkey]
      · simp [hkey, Ne.symm hkey]
    · rw [if_neg he]
      by_cases hkey : e.1 = k'
      · have hne : k' ≠ k := fun heq => he (hkey.trans heq)
        simp [hkey, hne]
      · rw [find?_cons_of_neg (by simpa using hkey), ih,
          find?_cons_of_neg (by simpa using hkey)]

theorem getD_set (k : κ) (v : ν) (d : List (κ × ν)) (k' : κ) (default : ν) :
    getD (set k v d) k' default = if k' = k then v else getD d k' default := by
  unfold getD
  rw [get?_set]
  split_ifs <;> rfl

theorem get?_of_mem (h : (d.map (·.1)).Nodup) (hmem : (k, v) ∈ d) : get? d k = some v := by
  unfold get?
  induction d with
  | nil => simp at hmem
  | cons e rest ih =>
    obtain ⟨hnot, hrest⟩ := nodup_cons.1 h
    rcases mem_cons.1 hmem with rfl | hmem
    · simp
    · have hne : e.1 ≠ k := by
        rintro rfl
        exact hnot (mem_map.2 ⟨_, hmem, rfl⟩)
      rw [find?_cons_of_neg (by simpa using hne)]
      exact ih hrest hmem

/-! ## Counting values -/

variable {α : Type*} [DecidableEq α]

/-- How often each value is in the list. -/
def tally (values : List α) : List (α × ℕ) :=
  values.foldl (fun counts a => set a (getD counts a 0 + 1) counts) []

theorem tally_concat (values : List α) (a : α) :
    tally (values ++ [a]) = set a (getD (tally values) a 0 + 1) (tally values) := by
  rw [tally, foldl_append]
  rfl

theorem nodup_keys_tally (values : List α) : ((tally values).map (·.1)).Nodup := by
  induction values using reverseRecOn with
  | nil => exact nodup_nil
  | append_singleton values a ih =>
    rw [tally_concat]
    exact nodup_keys_set ih

theorem getD_tally (values : List α) (a : α) : getD (tally values) a 0 = values.countP (· = a) := by
  induction values using reverseRecOn with
  | nil => rfl
  | append_singleton values b ih =>
    rw [tally_concat, getD_set]
    by_cases hab : a = b
    · subst hab
      simp [ih]
    · rw [if_neg hab, ih]
      simp [Ne.symm hab]

theorem mem_tally {values : List α} {a : α} {n : ℕ} (h : (a, n) ∈ tally values) :
    n = values.countP (· = a) := by
  rw [← getD_tally, getD, get?_of_mem (nodup_keys_tally values) h]
  rfl

/-- A value of a dictionary has as many keys as it is counted among the values. -/
theorem exists_keys_of_countP {d : List (κ × α)} (h : (d.map (·.1)).Nodup) (a : α) :
    ∃ keys : Finset κ, keys.card = (d.map (·.2)).countP (· = a) ∧ ∀ k ∈ keys, (k, a) ∈ d := by
  refine ⟨((d.filter fun e => e.2 = a).map (·.1)).toFinset, ?_, fun k hk => ?_⟩
  · have hnodup : ((d.filter fun e => e.2 = a).map (·.1)).Nodup :=
      h.sublist (filter_sublist.map _)
    rw [toFinset_card_of_nodup hnodup, length_map, countP_map, countP_eq_length_filter]
    rfl
  · obtain ⟨e, he, rfl⟩ := mem_map.1 (mem_toFinset.1 hk)
    obtain ⟨hmem, hvalue⟩ := mem_filter.1 he
    rw [← of_decide_eq_true hvalue]
    exact hmem

end Dict
