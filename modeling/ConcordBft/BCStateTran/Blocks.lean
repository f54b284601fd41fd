import ConcordBft.BCStateTran.State

set_option autoImplicit false

/-! # The blocks of the application

The last reachable block is the last one before the first hole; the last block is the one with the
largest number. -/

namespace ConcordBft.BCStateTran.AppState

variable {as : AppState} {n i : ℕ} {block : Bytes}

theorem hasBlock_iff : as.hasBlock i = true ↔ ∃ b, (i, b) ∈ as := OrderedMap.contains_iff

theorem getBlock_eq_some_iff : as.getBlock i = some block ↔ (i, block) ∈ as :=
  OrderedMap.find?_eq_some_iff

theorem mem_putBlock_iff {e : ℕ × Bytes} :
    e ∈ as.putBlock n block ↔ e = (n, block) ∨ (e ∈ as ∧ e.1 ≠ n) :=
  OrderedMap.mem_insert_iff

theorem hasBlock_putBlock :
    (as.putBlock n block).hasBlock i = true ↔ i = n ∨ as.hasBlock i = true := by
  simp only [hasBlock_iff, mem_putBlock_iff, Prod.mk.injEq]
  constructor
  · rintro ⟨b, ⟨rfl, -⟩ | ⟨hb, -⟩⟩
    · exact Or.inl rfl
    · exact Or.inr ⟨b, hb⟩
  · rintro (rfl | ⟨b, hb⟩)
    · simp
    · by_cases hi : i = n
      · exact ⟨block, Or.inl ⟨hi, rfl⟩⟩
      · exact ⟨b, Or.inr ⟨hb, hi⟩⟩

/-! ## The last reachable block -/

theorem le_reachableFrom_iff {l : List (ℕ × Bytes)} (hsorted : l.Pairwise fun a b => a.1 < b.1)
    {k : ℕ} (hk : ∀ e ∈ l, k < e.1) :
    n ≤ reachableFrom k l ↔ ∀ i, k < i → i ≤ n → ∃ b, (i, b) ∈ l := by
  induction l generalizing k with
  | nil =>
    constructor
    · intro h i hi hi'
      have : n ≤ k := h
      omega
    · intro h
      show n ≤ k
      by_contra hlt
      obtain ⟨b, hb⟩ := h n (by omega) (le_refl n)
      simp at hb
  | cons e rest ih =>
    obtain ⟨he, hrest⟩ := List.pairwise_cons.1 hsorted
    have hkey := hk e List.mem_cons_self
    unfold reachableFrom
    split_ifs with hnext
    · rw [ih hrest fun b hb => by have := he b hb; omega]
      constructor
      · intro h i hi hi'
        by_cases heq : i = k + 1
        · exact ⟨e.2, by rw [heq, ← hnext]; exact List.mem_cons_self⟩
        · obtain ⟨b, hb⟩ := h i (by omega) hi'
          exact ⟨b, List.mem_cons_of_mem e hb⟩
      · intro h i hi hi'
        obtain ⟨b, hb⟩ := h i (by omega) hi'
        rcases List.mem_cons.1 hb with rfl | hb
        · omega
        · exact ⟨b, hb⟩
    · constructor
      · omega
      · intro h
        by_contra hlt
        -- the first number behind `k` is missing
        obtain ⟨b, hb⟩ := h (k + 1) (by omega) (by omega)
        rcases List.mem_cons.1 hb with rfl | hb
        · exact hnext rfl
        · have := he _ hb
          omega

/-- Blocks are numbered from 1 on. -/
def Numbered (as : AppState) : Prop := ∀ e ∈ as, 0 < e.1

theorem Numbered.le_lastReachable_iff (h : Numbered as) :
    n ≤ as.getLastReachableBlockNum ↔ ∀ i, 0 < i → i ≤ n → as.hasBlock i = true := by
  simp only [hasBlock_iff]
  exact le_reachableFrom_iff as.sorted h

theorem Numbered.hasBlock_of_le (h : Numbered as) (hpos : 0 < i)
    (hle : i ≤ as.getLastReachableBlockNum) : as.hasBlock i = true :=
  h.le_lastReachable_iff.1 hle i hpos (le_refl i)

theorem Numbered.not_hasBlock_succ (h : Numbered as) :
    as.hasBlock (as.getLastReachableBlockNum + 1) = false := by
  refine Bool.eq_false_iff.2 fun hhas => ?_
  have hle : as.getLastReachableBlockNum + 1 ≤ as.getLastReachableBlockNum := by
    refine h.le_lastReachable_iff.2 fun i hpos hi => ?_
    by_cases heq : i = as.getLastReachableBlockNum + 1
    · rw [heq]
      exact hhas
    · exact h.hasBlock_of_le hpos (by omega)
  omega

theorem Numbered.putBlock (h : Numbered as) (hn : 0 < n) : Numbered (as.putBlock n block) := by
  intro e he
  rcases mem_putBlock_iff.1 he with rfl | ⟨he', -⟩
  · exact hn
  · exact h e he'

/-! ## The last block -/

theorem le_getLastBlockNum (h : as.hasBlock i = true) : i ≤ as.getLastBlockNum := by
  obtain ⟨b, hb⟩ := hasBlock_iff.1 h
  have hne : as.entries ≠ [] := List.ne_nil_of_mem hb
  rw [getLastBlockNum, List.getLast?_eq_some_getLast hne]
  show i ≤ (as.entries.getLast hne).1
  obtain ⟨front, hfront⟩ : ∃ front, as.entries = front ++ [as.entries.getLast hne] :=
    ⟨_, (List.dropLast_append_getLast hne).symm⟩
  have hsorted := as.sorted
  rw [OrderedMap.mem_def, hfront] at hb
  rw [hfront] at hsorted
  rcases List.mem_append.1 hb with hb | hb
  · exact le_of_lt ((List.pairwise_append.1 hsorted).2.2 _ hb _ (List.mem_singleton.2 rfl))
  · exact le_of_eq (congrArg Prod.fst (List.mem_singleton.1 hb))

theorem hasBlock_getLastBlockNum (h : 0 < as.getLastBlockNum) :
    as.hasBlock as.getLastBlockNum = true := by
  rw [getLastBlockNum] at h ⊢
  cases hlast : as.entries.getLast? with
  | none => rw [hlast] at h; simp at h
  | some e => exact hasBlock_iff.2 ⟨e.2, List.mem_of_getLast? hlast⟩

theorem getLastBlockNum_le_iff : as.getLastBlockNum ≤ n ↔ ∀ i, as.hasBlock i = true → i ≤ n := by
  constructor
  · exact fun h i hi => le_trans (le_getLastBlockNum hi) h
  · intro h
    by_cases hpos : 0 < as.getLastBlockNum
    · exact h _ (hasBlock_getLastBlockNum hpos)
    · omega

/-- There is no hole exactly if every block is reachable. -/
theorem Numbered.lastReachable_eq_iff (h : Numbered as) :
    as.getLastReachableBlockNum = n ↔
      (∀ i, 0 < i → i ≤ n → as.hasBlock i = true) ∧ as.hasBlock (n + 1) = false := by
  constructor
  · rintro rfl
    exact ⟨fun i hpos hi => h.hasBlock_of_le hpos hi, h.not_hasBlock_succ⟩
  · rintro ⟨hall, hnext⟩
    refine le_antisymm ?_ (h.le_lastReachable_iff.2 hall)
    by_contra hlt
    rw [h.hasBlock_of_le (Nat.succ_pos n) (by omega)] at hnext
    simp at hnext

/-! ## Applications without a hole -/

/-- The blocks of an application that appends to them: no hole and no empty block. -/
structure Whole (as : AppState) : Prop where
  numbered : Numbered as
  noHole : as.getLastReachableBlockNum = as.getLastBlockNum
  nonempty : ∀ e ∈ as, 0 < e.2.length

theorem Whole.exists_block (h : Whole as) (hpos : 0 < i) (hle : i ≤ as.getLastReachableBlockNum) :
    ∃ b, as.getBlock i = some b ∧ 0 < b.length := by
  obtain ⟨b, hb⟩ := hasBlock_iff.1 (h.numbered.hasBlock_of_le hpos hle)
  exact ⟨b, getBlock_eq_some_iff.2 hb, h.nonempty _ hb⟩

theorem Whole.append (h : Whole as) (hne : 0 < block.length) :
    Whole (as.putBlock (as.getLastBlockNum + 1) block) ∧
      (as.putBlock (as.getLastBlockNum + 1) block).getLastReachableBlockNum =
        as.getLastBlockNum + 1 := by
  have hnumbered : Numbered (as.putBlock (as.getLastBlockNum + 1) block) :=
    h.numbered.putBlock (Nat.succ_pos _)
  have hhas : ∀ i, (as.putBlock (as.getLastBlockNum + 1) block).hasBlock i = true ↔
      0 < i ∧ i ≤ as.getLastBlockNum + 1 := by
    intro i
    rw [hasBlock_putBlock]
    constructor
    · rintro (rfl | hi)
      · omega
      · obtain ⟨b, hb⟩ := hasBlock_iff.1 hi
        have := le_getLastBlockNum hi
        exact ⟨h.numbered _ hb, by omega⟩
    · rintro ⟨hpos, hle⟩
      by_cases heq : i = as.getLastBlockNum + 1
      · exact Or.inl heq
      · exact Or.inr (h.numbered.hasBlock_of_le hpos (by rw [h.noHole]; omega))
  have hreach : (as.putBlock (as.getLastBlockNum + 1) block).getLastReachableBlockNum =
      as.getLastBlockNum + 1 := by
    refine hnumbered.lastReachable_eq_iff.2 ⟨fun i hpos hi => (hhas i).2 ⟨hpos, hi⟩, ?_⟩
    refine Bool.eq_false_iff.2 fun hno => ?_
    have := (hhas _).1 hno
    omega
  have hlast : (as.putBlock (as.getLastBlockNum + 1) block).getLastBlockNum =
      as.getLastBlockNum + 1 := by
    refine le_antisymm (getLastBlockNum_le_iff.2 fun i hi => ((hhas i).1 hi).2) ?_
    exact le_getLastBlockNum ((hhas _).2 ⟨Nat.succ_pos _, le_refl _⟩)
  refine ⟨⟨hnumbered, hreach.trans hlast.symm, fun e he => ?_⟩, hreach⟩
  rcases mem_putBlock_iff.1 he with rfl | ⟨he', -⟩
  · exact hne
  · exact h.nonempty e he'

end ConcordBft.BCStateTran.AppState
