import Mathlib.Order.Lattice
import Mathlib.Data.List.Nodup

set_option autoImplicit false

/-! # Ordered maps

A map from keys to values, kept as the list of its entries in increasing order of their keys. Two maps
with the same entries are equal. -/

/-- A finite map whose entries are visited in increasing order of their keys. -/
structure OrderedMap (κ ν : Type*) [LinearOrder κ] where
  entries : List (κ × ν)
  sorted : entries.Pairwise fun a b => a.1 < b.1

namespace OrderedMap

open List

variable {κ ν : Type*} [LinearOrder κ]

/-! ## Operations -/

/-- The empty map. -/
def empty : OrderedMap κ ν := ⟨[], List.Pairwise.nil⟩

instance : Inhabited (OrderedMap κ ν) := ⟨empty⟩

/-- The value of a key. -/
def find? (m : OrderedMap κ ν) (k : κ) : Option ν := (m.entries.find? fun e => e.1 == k).map (·.2)

variable (m : OrderedMap κ ν)

/-- Whether a key is there. -/
def contains (k : κ) : Bool := m.entries.any fun e => e.1 == k

/-- The first entry whose key is not below `k`. -/
def lowerBound (k : κ) : Option (κ × ν) := m.entries.find? fun e => k ≤ e.1

/-- The entries with `k` bound to `v`; an entry with the same key is replaced. -/
def insertEntry (k : κ) (v : ν) : List (κ × ν) → List (κ × ν)
  | [] => [(k, v)]
  | e :: rest =>
    if k < e.1 then (k, v) :: e :: rest
    else if e.1 < k then e :: insertEntry k v rest
    else (k, v) :: rest

theorem mem_insertEntry_of {k : κ} {v : ν} {l : List (κ × ν)} {a : κ × ν}
    (h : a ∈ insertEntry k v l) : a = (k, v) ∨ a ∈ l := by
  induction l with
  | nil => exact Or.inl (by simpa [insertEntry] using h)
  | cons e rest ih =>
    unfold insertEntry at h
    split_ifs at h with hlt hgt
    · exact mem_cons.1 h
    · rcases mem_cons.1 h with rfl | h
      · simp
      · exact (ih h).imp_right (mem_cons_of_mem e)
    · exact (mem_cons.1 h).imp_right (mem_cons_of_mem e)

theorem pairwise_insertEntry {k : κ} {v : ν} {l : List (κ × ν)}
    (h : l.Pairwise fun a b => a.1 < b.1) :
    (insertEntry k v l).Pairwise fun a b => a.1 < b.1 := by
  induction l with
  | nil => exact pairwise_singleton _ _
  | cons e rest ih =>
    obtain ⟨he, hrest⟩ := pairwise_cons.1 h
    unfold insertEntry
    split_ifs with hlt hgt
    · refine pairwise_cons.2 ⟨fun a ha => ?_, h⟩
      rcases mem_cons.1 ha with rfl | ha
      · exact hlt
      · exact lt_trans hlt (he a ha)
    · refine pairwise_cons.2 ⟨fun a ha => ?_, ih hrest⟩
      rcases mem_insertEntry_of ha with rfl | ha
      · exact hgt
      · exact he a ha
    · have heq : k = e.1 := le_antisymm (not_lt.1 hgt) (not_lt.1 hlt)
      exact pairwise_cons.2 ⟨fun a ha => heq ▸ he a ha, hrest⟩

/-- Sets the value of a key. -/
def insert (k : κ) (v : ν) : OrderedMap κ ν :=
  ⟨insertEntry k v m.entries, pairwise_insertEntry m.sorted⟩

/-- As `insert`, but an entry with the same key stays. -/
def insertNew (k : κ) (v : ν) : OrderedMap κ ν := if m.contains k then m else m.insert k v

/-- Some of the entries. -/
def ofSublist (l : List (κ × ν)) (h : l.Sublist m.entries) : OrderedMap κ ν :=
  ⟨l, m.sorted.sublist h⟩

/-- Keeps some of the entries. -/
def filter (m : OrderedMap κ ν) (keep : κ × ν → Bool) : OrderedMap κ ν :=
  m.ofSublist (m.entries.filter keep) List.filter_sublist

/-- Removes a key. -/
def erase (k : κ) : OrderedMap κ ν := m.filter fun e => e.1 != k

/-- The number of entries. -/
def size : ℕ := m.entries.length

/-- The keys in increasing order. -/
def keys : List κ := m.entries.map (·.1)

/-! ## Members -/

instance : Membership (κ × ν) (OrderedMap κ ν) := ⟨fun m e => e ∈ m.entries⟩

variable {m m' : OrderedMap κ ν} {k : κ} {v : ν} {a b : κ × ν}

theorem mem_def : a ∈ m ↔ a ∈ m.entries := Iff.rfl

@[simp]
theorem not_mem_empty (a : κ × ν) : a ∉ (empty : OrderedMap κ ν) := not_mem_nil

theorem eq_of_mem (ha : a ∈ m) (hb : b ∈ m) (hkey : a.1 = b.1) : a = b := by
  have hnodup : (m.entries.map Prod.fst).Nodup :=
    pairwise_map.2 (m.sorted.imp fun hlt => ne_of_lt hlt)
  exact inj_on_of_nodup_map hnodup ha hb hkey

theorem find?_eq_some_iff : m.find? k = some v ↔ (k, v) ∈ m := by
  unfold find?
  constructor
  · intro h
    obtain ⟨e, he, rfl⟩ := Option.map_eq_some_iff.1 h
    have hkey : e.1 = k := by simpa using find?_some he
    rw [← hkey]
    exact mem_of_find?_eq_some he
  · intro h
    cases hfind : m.entries.find? fun e => e.1 == k with
    | none => exact absurd (find?_eq_none.1 hfind _ h) (by simp)
    | some e =>
      have hkey : e.1 = k := by simpa using find?_some hfind
      rw [eq_of_mem (m := m) (mem_of_find?_eq_some hfind) h hkey]
      rfl

theorem contains_iff : m.contains k = true ↔ ∃ v, (k, v) ∈ m := by
  simp only [contains, any_eq_true, beq_iff_eq]
  constructor
  · rintro ⟨e, he, rfl⟩
    exact ⟨e.2, he⟩
  · rintro ⟨v, hv⟩
    exact ⟨(k, v), hv, rfl⟩

theorem contains_eq_false_iff : m.contains k = false ↔ ∀ v, (k, v) ∉ m := by
  rw [← Bool.not_eq_true, contains_iff]
  push Not
  rfl

theorem find?_isSome : (m.find? k).isSome = m.contains k := by
  rw [Bool.eq_iff_iff, contains_iff, Option.isSome_iff_exists]
  simp only [find?_eq_some_iff]

theorem mem_insert_iff : a ∈ m.insert k v ↔ a = (k, v) ∨ (a ∈ m ∧ a.1 ≠ k) := by
  obtain ⟨l, hl⟩ := m
  show a ∈ insertEntry k v l ↔ a = (k, v) ∨ (a ∈ l ∧ a.1 ≠ k)
  induction l with
  | nil => simp [insertEntry]
  | cons e rest ih =>
    obtain ⟨he, hrest⟩ := pairwise_cons.1 hl
    unfold insertEntry
    split_ifs with hlt hgt
    · have hnew : a ∈ e :: rest → a.1 ≠ k := by
        intro ha
        rcases mem_cons.1 ha with rfl | ha
        · exact ne_of_gt hlt
        · exact ne_of_gt (lt_trans hlt (he a ha))
      rw [mem_cons]
      exact ⟨fun h => h.imp_right fun h => ⟨h, hnew h⟩, fun h => h.imp_right And.left⟩
    · rw [mem_cons, ih hrest, mem_cons]
      constructor
      · rintro (rfl | rfl | ⟨ha, hne⟩)
        · exact Or.inr ⟨Or.inl rfl, ne_of_lt hgt⟩
        · exact Or.inl rfl
        · exact Or.inr ⟨Or.inr ha, hne⟩
      · rintro (rfl | ⟨rfl | ha, hne⟩)
        · simp
        · exact Or.inl rfl
        · exact Or.inr (Or.inr ⟨ha, hne⟩)
    · have heq : k = e.1 := le_antisymm (not_lt.1 hgt) (not_lt.1 hlt)
      rw [mem_cons, mem_cons]
      constructor
      · rintro (rfl | ha)
        · exact Or.inl rfl
        · exact Or.inr ⟨Or.inr ha, heq ▸ ne_of_gt (he a ha)⟩
      · rintro (rfl | ⟨rfl | ha, hne⟩)
        · exact Or.inl rfl
        · exact absurd heq.symm hne
        · exact Or.inr ha

theorem find?_insert (m : OrderedMap κ ν) (k : κ) (v : ν) (k' : κ) :
    (m.insert k v).find? k' = if k' = k then some v else m.find? k' := by
  ext w
  rw [find?_eq_some_iff, mem_insert_iff]
  by_cases hkey : k' = k
  · subst hkey
    simp [eq_comm]
  · simp [hkey, find?_eq_some_iff]

theorem find?_insertNew (m : OrderedMap κ ν) (k : κ) (v : ν) (k' : κ) :
    (m.insertNew k v).find? k' = (m.find? k').or (if k' = k then some v else none) := by
  rw [insertNew, ← find?_isSome]
  by_cases hkey : k' = k
  · subst hkey
    cases hfind : m.find? k' with
    | none => simp [find?_insert]
    | some w => simp [hfind]
  · rw [if_neg hkey, Option.or_none]
    split_ifs
    · rfl
    · rw [find?_insert, if_neg hkey]

/-- Of the entries inserted one after the other, the first for a key stays. -/
theorem find?_foldl_insertNew (m : OrderedMap κ ν) (l : List (κ × ν)) (k : κ) :
    (l.foldl (fun m e => m.insertNew e.1 e.2) m).find? k =
      (m.find? k).or ((l.find? fun e => e.1 == k).map (·.2)) := by
  induction l generalizing m with
  | nil => simp
  | cons e l ih =>
    rw [foldl_cons, ih, find?_insertNew]
    split_ifs with hkey
    · rw [find?_cons_of_pos (by simp [hkey])]
      simp
    · rw [find?_cons_of_neg (by simpa using Ne.symm hkey)]
      simp

@[simp]
theorem mem_filter_iff {keep : κ × ν → Bool} : a ∈ m.filter keep ↔ a ∈ m ∧ keep a = true :=
  mem_filter

@[simp]
theorem mem_erase_iff : a ∈ m.erase k ↔ a ∈ m ∧ a.1 ≠ k := by
  simp [erase]

theorem mem_keys_iff : k ∈ m.keys ↔ ∃ v, (k, v) ∈ m := by
  simp [keys, mem_def]

/-- The lower bound is the least entry that is not below `k`. -/
theorem lowerBound_eq_some_iff :
    m.lowerBound k = some a ↔ a ∈ m ∧ k ≤ a.1 ∧ ∀ b ∈ m, k ≤ b.1 → a.1 ≤ b.1 := by
  obtain ⟨l, hl⟩ := m
  show l.find? (fun e => decide (k ≤ e.1)) = some a ↔ a ∈ l ∧ k ≤ a.1 ∧ ∀ b ∈ l, k ≤ b.1 → a.1 ≤ b.1
  induction l with
  | nil => simp
  | cons e rest ih =>
    obtain ⟨he, hrest⟩ := pairwise_cons.1 hl
    by_cases hle : k ≤ e.1
    · rw [find?_cons_of_pos (by simpa using hle)]
      constructor
      · intro h
        obtain rfl := Option.some.inj h
        refine ⟨mem_cons_self, hle, fun b hb _ => ?_⟩
        rcases mem_cons.1 hb with rfl | hb
        · exact le_refl _
        · exact le_of_lt (he b hb)
      · rintro ⟨ha, -, hleast⟩
        rcases mem_cons.1 ha with rfl | ha
        · rfl
        · exact absurd (he a ha) (not_lt.2 (hleast e mem_cons_self hle))
    · rw [find?_cons_of_neg (by simpa using hle), ih hrest]
      constructor
      · rintro ⟨ha, hka, hleast⟩
        refine ⟨mem_cons_of_mem e ha, hka, fun b hb hkb => ?_⟩
        rcases mem_cons.1 hb with rfl | hb
        · exact absurd hkb hle
        · exact hleast b hb hkb
      · rintro ⟨ha, hka, hleast⟩
        rcases mem_cons.1 ha with rfl | ha
        · exact absurd hka hle
        · exact ⟨ha, hka, fun b hb => hleast b (mem_cons_of_mem e hb)⟩

theorem lowerBound_eq_none_iff : m.lowerBound k = none ↔ ∀ b ∈ m, ¬ k ≤ b.1 := by
  unfold lowerBound
  simp [mem_def]

end OrderedMap
