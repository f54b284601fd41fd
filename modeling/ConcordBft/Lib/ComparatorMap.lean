import ConcordBft.Lib.OrderedMap

set_option autoImplicit false

/-! # Maps with a comparison function

A map whose order is a comparison function of the keys' representation (`std::map` with a comparator),
kept as the list of its entries. Nothing is asked of the comparison. Where the keys in use are the
images of a linearly ordered type and the comparison agrees with that order, the map is the image of
an `OrderedMap` (`put_image`, `find_image`, `seek_image`). -/

namespace ComparatorMap

open OrderedMap

variable {κ ν : Type*}

/-! ## Operations -/

/-- Bind `k` to `v`. An equivalent key that is there already stays as it is. -/
def put (lt : κ → κ → Bool) (k : κ) (v : ν) : List (κ × ν) → List (κ × ν)
  | [] => [(k, v)]
  | e :: rest =>
    if lt k e.1 then (k, v) :: e :: rest
    else if lt e.1 k then e :: put lt k v rest
    else (e.1, v) :: rest

/-- The entries from the first one on that is not below `k`. -/
def seek (lt : κ → κ → Bool) (k : κ) (entries : List (κ × ν)) : List (κ × ν) :=
  entries.dropWhile fun e => lt e.1 k

/-- The value of the entry whose key is equivalent to `k`. -/
def find (lt : κ → κ → Bool) (k : κ) (entries : List (κ × ν)) : Option ν :=
  (entries.find? fun e => !lt e.1 k && !lt k e.1).map (·.2)

/-! ## Images of ordered maps -/

variable {α : Type*} [LinearOrder α]

/-- The entries of an ordered map under a representation of its keys. -/
def image (repr : α → κ) (m : OrderedMap α ν) : List (κ × ν) :=
  m.entries.map fun e => (repr e.1, e.2)

/-- The comparison agrees with the order of the keys that are represented. -/
def Represents (lt : κ → κ → Bool) (repr : α → κ) : Prop :=
  ∀ a b, lt (repr a) (repr b) = true ↔ a < b

variable {lt : κ → κ → Bool} {repr : α → κ}

theorem put_image (h : Represents lt repr) (m : OrderedMap α ν) (k : α) (v : ν) :
    put lt (repr k) v (image repr m) = image repr (m.insert k v) := by
  obtain ⟨entries, sorted⟩ := m
  unfold image OrderedMap.insert
  dsimp only
  clear sorted
  induction entries with
  | nil => rfl
  | cons e rest ih =>
    rw [List.map_cons, put, insertEntry]
    by_cases hlt : k < e.1
    · rw [if_pos hlt, if_pos ((h _ _).2 hlt)]
      rfl
    by_cases hgt : e.1 < k
    · rw [if_neg hlt, if_pos hgt, if_neg (hlt ∘ (h _ _).1), if_pos ((h _ _).2 hgt), ih]
      rfl
    · rw [if_neg hlt, if_neg hgt, if_neg (hlt ∘ (h _ _).1), if_neg (hgt ∘ (h _ _).1),
        le_antisymm (not_lt.1 hgt) (not_lt.1 hlt)]
      rfl

/-- The entries that are not below `k`. -/
def atLeast (m : OrderedMap α ν) (k : α) : OrderedMap α ν := m.filter fun e => k ≤ e.1

theorem head?_atLeast (m : OrderedMap α ν) (k : α) : (atLeast m k).entries.head? = m.lowerBound k :=
  List.head?_filter

theorem seek_image (h : Represents lt repr) (m : OrderedMap α ν) (k : α) :
    seek lt (repr k) (image repr m) = image repr (atLeast m k) := by
  obtain ⟨entries, sorted⟩ := m
  unfold image seek atLeast filter ofSublist
  dsimp only
  induction entries with
  | nil => rfl
  | cons e rest ih =>
    obtain ⟨he, hrest⟩ := List.pairwise_cons.1 sorted
    rw [List.map_cons, List.dropWhile_cons]
    by_cases hle : k ≤ e.1
    · -- all that follows is not below `k` either
      have hall : ∀ a ∈ rest, decide (k ≤ a.1) = true := fun a ha =>
        decide_eq_true (le_trans hle (le_of_lt (he a ha)))
      rw [if_neg (not_lt.2 hle ∘ (h _ _).1), List.filter_cons_of_pos (by simpa using hle),
        List.filter_eq_self.2 hall, List.map_cons]
    · rw [if_pos ((h _ _).2 (not_le.1 hle)), List.filter_cons_of_neg (by simpa using hle)]
      exact ih hrest

theorem find_image (h : Represents lt repr) (m : OrderedMap α ν) (k : α) :
    find lt (repr k) (image repr m) = m.find? k := by
  unfold find image find?
  rw [List.find?_map, Option.map_map]
  congr 2
  funext e
  have hkey : (!lt (repr e.1) (repr k) && !lt (repr k) (repr e.1)) = (e.1 == k) := by
    rw [Bool.eq_iff_iff]
    simp only [Bool.and_eq_true, Bool.not_eq_true', ← Bool.not_eq_true, beq_iff_eq, (h _ _).not,
      not_lt]
    exact ⟨fun hle => le_antisymm hle.2 hle.1, fun heq => ⟨heq ▸ le_refl _, heq ▸ le_refl _⟩⟩
  exact hkey

end ComparatorMap
