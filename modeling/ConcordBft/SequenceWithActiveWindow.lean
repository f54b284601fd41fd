import ConcordBft.Failure
import ConcordBft.Lib.Machine
import Mathlib.Data.List.Nodup
import Mathlib.Data.Nat.ModEq
import Mathlib.Tactic.Ring

set_option autoImplicit false

/-! # Sequences with an active window (`SequenceWithActiveWindow.hpp`)

The log of a replica keeps one item for each sequence number of a window. The items lie in a ring:
the number `n` has the place `(n / Resolution) % numItems`, and when the window is moved forward, the
places of the numbers that leave it are reset and belong to the numbers that enter it. `lookup` reads
a place without the assertions of `get`; the results of this file say that, inside the window, the
ring behaves like a map from numbers to items. -/

namespace ConcordBft

open Checked

/-- The `static_assert`s on the template arguments. -/
class WindowShape (WindowSize Resolution : ℕ) : Prop where
  resolution_pos : 0 < Resolution
  resolution_lt : Resolution < WindowSize
  resolution_dvd : Resolution ∣ WindowSize

/-- The windows of sequence numbers and of checkpoints. -/
instance : WindowShape 300 1 := ⟨by decide, by decide, by decide⟩

instance : WindowShape 450 150 := ⟨by decide, by decide, by decide⟩

/-- `activeWindow i` is only used for `i < numItems`. -/
structure SequenceWithActiveWindow (WindowSize Resolution : ℕ) (ItemType : Type) where
  beginningOfActiveWindow : SeqNum
  activeWindow : ℕ → ItemType

namespace SequenceWithActiveWindow

variable {WindowSize Resolution : ℕ} {ItemType : Type}

/-- The places of the ring. -/
def numItems (WindowSize Resolution : ℕ) : ℕ := WindowSize / Resolution

/-- The place of a number in the ring. -/
def index (WindowSize Resolution : ℕ) (n : SeqNum) : ℕ :=
  ((n / (Resolution : Int)) % (numItems WindowSize Resolution : Int)).toNat

variable (w : SequenceWithActiveWindow WindowSize Resolution ItemType) (n : SeqNum)

/-- Whether a number is in the window. -/
def insideActiveWindow : Bool :=
  w.beginningOfActiveWindow ≤ n && n < w.beginningOfActiveWindow + WindowSize

/-- The item in the place of `n`. -/
def lookup : ItemType := w.activeWindow (index WindowSize Resolution n)

/-- A number that `get` accepts. -/
def Holds : Prop := n % (Resolution : Int) = 0 ∧ w.insideActiveWindow n = true

instance (w : SequenceWithActiveWindow WindowSize Resolution ItemType) (n : SeqNum) :
    Decidable (w.Holds n) := inferInstanceAs (Decidable (_ ∧ _))

/-- Reads the item of `n`; both assertions of `get` fail as `outsideActiveWindow`. -/
def get : Except Failure ItemType := do
  require Failure.outsideActiveWindow (w.Holds n)
  pure (w.lookup n)

/-- Writes through the reference that `get n` returned. -/
def set (item : ItemType) : SequenceWithActiveWindow WindowSize Resolution ItemType :=
  { w with activeWindow := fun i =>
      if i = index WindowSize Resolution n then item else w.activeWindow i }

variable [Inhabited ItemType] {w' : SequenceWithActiveWindow WindowSize Resolution ItemType}
  {first : SeqNum}

/-- A reset item is `default`. -/
def resetAll (windowFirst : SeqNum) : SequenceWithActiveWindow WindowSize Resolution ItemType where
  beginningOfActiveWindow := windowFirst
  activeWindow := fun _ => default

/-- `for (i = inactiveBegin; i != activeBegin; i = (i + 1) % numItems)`: the places that the loop
    resets, one after the other. The third argument bounds the number of rounds. -/
def resetLoop (numItems activeBegin : ℕ) : ℕ → ℕ → List ℕ
  | 0, _ => []
  | rounds + 1, i =>
    if i = activeBegin then []
    else i :: resetLoop numItems activeBegin rounds ((i + 1) % numItems)

/-- The number of places from `inactiveBegin` to the one before `activeBegin`. -/
def resetSize (numItems inactiveBegin activeBegin : ℕ) : ℕ :=
  let inactiveEnd := if 0 < activeBegin then activeBegin - 1 else numItems - 1
  if inactiveBegin ≤ inactiveEnd then inactiveEnd - inactiveBegin + 1
  else inactiveEnd + 1 + numItems - inactiveBegin

/-- `debugNumOfReset` is the length of the list of places. -/
def advanceActiveWindow (newFirstIndexOfActiveWindow : SeqNum) :
    Except Failure (SequenceWithActiveWindow WindowSize Resolution ItemType) := do
  Assert (newFirstIndexOfActiveWindow % (Resolution : Int) = 0)
  Assert (w.beginningOfActiveWindow ≤ newFirstIndexOfActiveWindow)
  if newFirstIndexOfActiveWindow = w.beginningOfActiveWindow then pure w
  else if (WindowSize : Int) ≤ newFirstIndexOfActiveWindow - w.beginningOfActiveWindow then
    pure (resetAll newFirstIndexOfActiveWindow)
  else do
    let numItems := numItems WindowSize Resolution
    let inactiveBegin := index WindowSize Resolution w.beginningOfActiveWindow
    let activeBegin := index WindowSize Resolution newFirstIndexOfActiveWindow
    let resetSize := resetSize numItems inactiveBegin activeBegin
    Assert (0 < resetSize ∧ resetSize < numItems)
    let places := resetLoop numItems activeBegin numItems inactiveBegin
    Assert (places.length = resetSize)
    pure {
      beginningOfActiveWindow := newFirstIndexOfActiveWindow
      activeWindow := fun i => if i ∈ places then default else w.activeWindow i }

/-! ## Places in the ring -/

section Places

variable [shape : WindowShape WindowSize Resolution]

omit [Inhabited ItemType]

theorem numItems_pos : 0 < numItems WindowSize Resolution :=
  Nat.div_pos (le_of_lt shape.resolution_lt) shape.resolution_pos

theorem resolution_mul_numItems (WindowSize Resolution : ℕ) [WindowShape WindowSize Resolution] :
    (Resolution : Int) * numItems WindowSize Resolution = WindowSize := by
  have h : Resolution * numItems WindowSize Resolution = WindowSize :=
    Nat.mul_div_cancel' WindowShape.resolution_dvd
  exact_mod_cast h

theorem index_cast (n : SeqNum) :
    (index WindowSize Resolution n : Int) =
      n / (Resolution : Int) % (numItems WindowSize Resolution : Int) := by
  have hpos : (0 : Int) < numItems WindowSize Resolution := by exact_mod_cast numItems_pos
  exact Int.toNat_of_nonneg (Int.emod_nonneg _ (by lia))

theorem index_lt (n : SeqNum) : index WindowSize Resolution n < numItems WindowSize Resolution := by
  have hpos : (0 : Int) < numItems WindowSize Resolution := by exact_mod_cast numItems_pos
  have h := Int.emod_lt_of_pos (n / (Resolution : Int)) hpos
  rw [← index_cast] at h
  exact_mod_cast h

/-- The `k`-th number from `n` on has the `k`-th place from there. -/
theorem index_add_steps (n : SeqNum) (k : ℕ) :
    index WindowSize Resolution (n + k * Resolution) =
      (index WindowSize Resolution n + k) % numItems WindowSize Resolution := by
  have hR : (Resolution : Int) ≠ 0 := by have := shape.resolution_pos; lia
  have h : (index WindowSize Resolution (n + k * Resolution) : Int) =
      ((index WindowSize Resolution n + k) % numItems WindowSize Resolution : ℕ) := by
    rw [index_cast, Int.add_mul_ediv_right _ _ hR]
    push_cast
    rw [index_cast, Int.emod_add_emod]
  exact_mod_cast h

/-- A number that enters the window takes the place of the one that leaves it. -/
theorem index_add_window (n : SeqNum) :
    index WindowSize Resolution (n + WindowSize) = index WindowSize Resolution n := by
  have hR : (Resolution : Int) ≠ 0 := by have := shape.resolution_pos; lia
  have h : (index WindowSize Resolution (n + WindowSize) : Int) =
      index WindowSize Resolution n := by
    rw [index_cast, index_cast, ← resolution_mul_numItems WindowSize Resolution,
      Int.add_mul_ediv_left _ _ hR, Int.add_emod_right]
  exact_mod_cast h

/-- Two numbers of one window have different places. -/
theorem index_injective {b n m : SeqNum} (hn : n % (Resolution : Int) = 0)
    (hm : m % (Resolution : Int) = 0) (hbn : b ≤ n) (hnb : n < b + WindowSize) (hbm : b ≤ m)
    (hmb : m < b + WindowSize)
    (h : index WindowSize Resolution n = index WindowSize Resolution m) : n = m := by
  have hmod : n / (Resolution : Int) % (numItems WindowSize Resolution : Int) =
      m / (Resolution : Int) % (numItems WindowSize Resolution : Int) := by
    rw [← index_cast, ← index_cast, h]
  obtain ⟨n', rfl⟩ := Int.dvd_of_emod_eq_zero hn
  obtain ⟨m', rfl⟩ := Int.dvd_of_emod_eq_zero hm
  have hR : (0 : Int) < Resolution := by have := shape.resolution_pos; lia
  have hW := resolution_mul_numItems WindowSize Resolution
  rw [Int.mul_ediv_cancel_left _ (by lia), Int.mul_ediv_cancel_left _ (by lia)] at hmod
  have hdvd : (numItems WindowSize Resolution : Int) ∣ n' - m' :=
    Int.dvd_of_emod_eq_zero (Int.emod_eq_emod_iff_emod_sub_eq_zero.1 hmod)
  have hzero : n' - m' = 0 := by
    refine Int.eq_zero_of_abs_lt_dvd hdvd (abs_lt.2 ⟨?_, ?_⟩)
    · refine Int.lt_of_mul_lt_mul_left ?_ (le_of_lt hR)
      lia
    · refine Int.lt_of_mul_lt_mul_left ?_ (le_of_lt hR)
      lia
  have : n' = m' := by lia
  rw [this]

end Places

/-! ## Reading and writing -/

section ReadWrite

omit [Inhabited ItemType]

variable {w : SequenceWithActiveWindow WindowSize Resolution ItemType} {n m : SeqNum}

theorem holds_iff : w.Holds n ↔ n % (Resolution : Int) = 0 ∧ w.beginningOfActiveWindow ≤ n ∧
    n < w.beginningOfActiveWindow + WindowSize := by
  simp [Holds, insideActiveWindow]

theorem get_eq (h : w.Holds n) : w.get n = .ok (w.lookup n) := by
  rw [get, require_of h]
  rfl

theorem get_eq_ok_iff {item : ItemType} : w.get n = .ok item ↔ w.Holds n ∧ w.lookup n = item := by
  constructor
  · intro h
    obtain ⟨_, hreq, hpure⟩ := bind_eq_ok h
    exact ⟨require_eq_ok_iff.1 hreq, Except.ok.inj hpure⟩
  · rintro ⟨h, rfl⟩
    exact get_eq h

@[simp] theorem holds_set (w : SequenceWithActiveWindow WindowSize Resolution ItemType)
    (n m : SeqNum) (item : ItemType) : (w.set n item).Holds m ↔ w.Holds m := Iff.rfl

@[simp] theorem lookup_set_self (w : SequenceWithActiveWindow WindowSize Resolution ItemType)
    (n : SeqNum) (item : ItemType) : (w.set n item).lookup n = item := by
  simp [lookup, set]

theorem lookup_set_of_ne [WindowShape WindowSize Resolution] (hn : w.Holds n) (hm : w.Holds m)
    (hne : m ≠ n) (item : ItemType) : (w.set n item).lookup m = w.lookup m := by
  obtain ⟨hnr, hbn, hnb⟩ := holds_iff.1 hn
  obtain ⟨hmr, hbm, hmb⟩ := holds_iff.1 hm
  exact if_neg fun h => hne (index_injective hmr hnr hbm hmb hbn hnb h)

theorem lookup_set [WindowShape WindowSize Resolution] (hn : w.Holds n) (hm : w.Holds m)
    (item : ItemType) : (w.set n item).lookup m = if m = n then item else w.lookup m := by
  split_ifs with h
  · rw [h, lookup_set_self]
  · rw [lookup_set_of_ne hn hm h]

end ReadWrite

/-! ## Moving the window -/

section Advance

@[simp] theorem lookup_resetAll (first n : SeqNum) :
    (resetAll first : SequenceWithActiveWindow WindowSize Resolution ItemType).lookup n = default :=
  rfl

variable [shape : WindowShape WindowSize Resolution]

omit [Inhabited ItemType] in
/-- The loop goes through the places of the `k` numbers from `b` on, when the place where it stops is
    the place of the number after them. -/
theorem resetLoop_eq {activeBegin : ℕ} (k rounds : ℕ) (hk : k ≤ rounds) (b : SeqNum)
    (hstop : index WindowSize Resolution (b + k * Resolution) = activeBegin)
    (hgo : ∀ j : ℕ, j < k → index WindowSize Resolution (b + j * Resolution) ≠ activeBegin) :
    resetLoop (numItems WindowSize Resolution) activeBegin rounds (index WindowSize Resolution b) =
      (List.range k).map fun j : ℕ => index WindowSize Resolution (b + j * Resolution) := by
  induction k generalizing rounds b with
  | zero =>
    have hb : index WindowSize Resolution b = activeBegin := by simpa using hstop
    cases rounds with
    | zero => rfl
    | succ rounds => simp [resetLoop, hb]
  | succ k ih =>
    obtain ⟨rounds, rfl⟩ : ∃ r, rounds = r + 1 := ⟨rounds - 1, by omega⟩
    have hb : index WindowSize Resolution b ≠ activeBegin := by
      simpa using hgo 0 (Nat.succ_pos k)
    have hshift : ∀ j : ℕ, b + Resolution + j * Resolution = b + (j + 1 : ℕ) * Resolution := by
      intro j
      push_cast
      ring
    have hnext : index WindowSize Resolution (b + Resolution) =
        (index WindowSize Resolution b + 1) % numItems WindowSize Resolution := by
      have hstep : index WindowSize Resolution (b + (1 : ℕ) * Resolution) = _ := index_add_steps b 1
      simpa using hstep
    rw [resetLoop, if_neg hb, ← hnext]
    rw [ih rounds (by omega) (b + Resolution) (by rw [hshift]; exact hstop)
      (fun j hj => by rw [hshift]; exact hgo (j + 1) (by omega))]
    rw [List.range_succ_eq_map, List.map_cons, List.map_map]
    simp only [hshift, Function.comp_def]
    simp

omit [Inhabited ItemType] shape in
theorem resetSize_eq {numItems p k : ℕ} (hp : p < numItems) (hk : 0 < k) (hlt : k < numItems) :
    resetSize numItems p ((p + k) % numItems) = k := by
  by_cases hwrap : p + k < numItems
  · rw [Nat.mod_eq_of_lt hwrap]
    simp only [resetSize, if_pos (Nat.add_pos_right p hk)]
    rw [if_pos (by omega)]
    omega
  · rw [Nat.mod_eq_sub_mod (by omega), Nat.mod_eq_of_lt (by omega)]
    by_cases hzero : 0 < p + k - numItems
    · simp only [resetSize, if_pos hzero]
      rw [if_neg (by omega)]
      omega
    · simp only [resetSize, if_neg hzero]
      rw [if_pos (by omega)]
      omega

omit [Inhabited ItemType] in
/-- Numbers with an item lie a whole number of steps apart. -/
theorem exists_steps {b n : SeqNum} (hb : b % (Resolution : Int) = 0)
    (hn : n % (Resolution : Int) = 0) (hR : (0 : Int) < Resolution) (hle : b ≤ n) :
    ∃ k : ℕ, n = b + k * Resolution := by
  obtain ⟨x, hx⟩ := Int.dvd_of_emod_eq_zero
    (Int.emod_eq_emod_iff_emod_sub_eq_zero.1 (hn.trans hb.symm))
  have hx0 : 0 ≤ x := by
    by_contra hneg
    have : (Resolution : Int) * x < 0 := Int.mul_neg_of_pos_of_neg hR (by lia)
    lia
  refine ⟨x.toNat, ?_⟩
  rw [Int.toNat_of_nonneg hx0, mul_comm]
  lia

omit [Inhabited ItemType] in
/-- The `j`-th number from `b` on shares its place with no other number of the window. -/
theorem eq_of_index_steps {b n : SeqNum} {j k : ℕ} (hb : b % (Resolution : Int) = 0) (hj : j < k)
    (hk : k ≤ numItems WindowSize Resolution) (hn : n % (Resolution : Int) = 0) (hlo : b ≤ n)
    (hhi : n < b + WindowSize)
    (h : index WindowSize Resolution (b + j * Resolution) = index WindowSize Resolution n) :
    b + j * Resolution = n ∧ (j : Int) * Resolution < k * Resolution := by
  have hR : (0 : Int) < Resolution := by have := shape.resolution_pos; lia
  have hW := resolution_mul_numItems WindowSize Resolution
  have hjk : (j : Int) * Resolution < k * Resolution :=
    Int.mul_lt_mul_of_pos_right (by exact_mod_cast hj) hR
  have hkN : (k : Int) * Resolution ≤ numItems WindowSize Resolution * Resolution :=
    Int.mul_le_mul_of_nonneg_right (by exact_mod_cast hk) (le_of_lt hR)
  have hj0 : 0 ≤ (j : Int) * Resolution := Int.mul_nonneg (by lia) (by lia)
  refine ⟨?_, hjk⟩
  exact index_injective (b := b) (by rw [Int.add_mul_emod_self_right, hb]) hn (by lia) (by lia) hlo
    hhi h

/-- When the window moves by less than its size, the loop resets the places of the numbers that
    leave it. -/
theorem resetLoop_leaving {b first : SeqNum} (hb : b % (Resolution : Int) = 0)
    (hfirst : first % (Resolution : Int) = 0) (hlt : b < first) (hnear : first - b < WindowSize) :
    ∃ k : ℕ, 0 < k ∧ k < numItems WindowSize Resolution ∧ first = b + k * Resolution ∧
      resetLoop (numItems WindowSize Resolution) (index WindowSize Resolution first)
          (numItems WindowSize Resolution) (index WindowSize Resolution b) =
        (List.range k).map fun j : ℕ => index WindowSize Resolution (b + j * Resolution) := by
  have hR : (0 : Int) < Resolution := by have := shape.resolution_pos; lia
  have hW := resolution_mul_numItems WindowSize Resolution
  obtain ⟨k, hk⟩ := exists_steps hb hfirst hR (le_of_lt hlt)
  have hkpos : 0 < k := by
    rcases Nat.eq_zero_or_pos k with rfl | hpos
    · lia
    · exact hpos
  have hklt : k < numItems WindowSize Resolution := by
    by_contra hge
    have : (Resolution : Int) * numItems WindowSize Resolution ≤ k * Resolution := by
      rw [mul_comm]
      exact Int.mul_le_mul_of_nonneg_right (by exact_mod_cast (by omega)) (le_of_lt hR)
    lia
  refine ⟨k, hkpos, hklt, hk, resetLoop_eq k _ (le_of_lt hklt) b (by rw [hk]) ?_⟩
  -- none of them has the place of `first`, which lies in the same window
  intro j hj hsame
  have := eq_of_index_steps hb hj (le_of_lt hklt) hfirst (by lia) (by lia) hsame
  lia

/-- A place that belongs to a number of the moved window is reset exactly if the number is new. -/
theorem index_mem_resetLoop {b first n : SeqNum} (hb : b % (Resolution : Int) = 0)
    (hfirst : first % (Resolution : Int) = 0) (hlt : b < first) (hnear : first - b < WindowSize)
    (hn : n % (Resolution : Int) = 0) (hlo : first ≤ n) (hhi : n < first + WindowSize) :
    index WindowSize Resolution n ∈ resetLoop (numItems WindowSize Resolution)
        (index WindowSize Resolution first) (numItems WindowSize Resolution)
        (index WindowSize Resolution b) ↔ b + WindowSize ≤ n := by
  have hR : (0 : Int) < Resolution := by have := shape.resolution_pos; lia
  obtain ⟨k, -, hklt, hk, hplaces⟩ := resetLoop_leaving hb hfirst hlt hnear
  simp only [hplaces, List.mem_map, List.mem_range]
  constructor
  · -- the place of a number that stays is none of those that are reset
    rintro ⟨j, hj, hsame⟩
    by_contra hstays
    have := eq_of_index_steps hb hj (le_of_lt hklt) hn (by lia) (by lia) hsame
    lia
  · -- a number that enters has the place of the number one window before
    intro henters
    have hback : (n - WindowSize) % (Resolution : Int) = 0 := by
      rw [← resolution_mul_numItems WindowSize Resolution, Int.sub_mul_emod_self_left, hn]
    obtain ⟨j, hj⟩ := exists_steps hb hback hR (by lia)
    refine ⟨j, ?_, ?_⟩
    · by_contra hge
      have : (k : Int) * Resolution ≤ j * Resolution :=
        Int.mul_le_mul_of_nonneg_right (by exact_mod_cast (by omega)) (le_of_lt hR)
      lia
    · rw [← hj, ← index_add_window (n - WindowSize), sub_add_cancel]

/-- **Moving the window.** Numbers that stay in the window keep their item, and numbers that enter
    it have a reset one. -/
theorem advanceActiveWindow_spec {w : SequenceWithActiveWindow WindowSize Resolution ItemType}
    (hb : w.beginningOfActiveWindow % (Resolution : Int) = 0)
    (hfirst : first % (Resolution : Int) = 0) (hle : w.beginningOfActiveWindow ≤ first) :
    ∃ w', w.advanceActiveWindow first = .ok w' ∧ w'.beginningOfActiveWindow = first ∧
      ∀ n, w'.Holds n → w'.lookup n =
        if n < w.beginningOfActiveWindow + WindowSize then w.lookup n else default := by
  unfold advanceActiveWindow
  simp only [Assert, require_of hfirst, require_of hle, ok_bind]
  by_cases heq : first = w.beginningOfActiveWindow
  · rw [if_pos heq]
    refine ⟨w, rfl, heq.symm, fun n hn => ?_⟩
    rw [if_pos (holds_iff.1 hn).2.2]
  rw [if_neg heq]
  by_cases hjump : (WindowSize : Int) ≤ first - w.beginningOfActiveWindow
  · rw [if_pos hjump]
    refine ⟨_, rfl, rfl, fun n hn => ?_⟩
    have hlo : first ≤ n := (holds_iff.1 hn).2.1
    rw [if_neg (by lia)]
    rfl
  · have hlt : w.beginningOfActiveWindow < first := by lia
    have hnear : first - w.beginningOfActiveWindow < WindowSize := by lia
    obtain ⟨k, hkpos, hklt, hk, hplaces⟩ := resetLoop_leaving hb hfirst hlt hnear
    have hsize : resetSize (numItems WindowSize Resolution)
        (index WindowSize Resolution w.beginningOfActiveWindow)
        (index WindowSize Resolution first) = k := by
      rw [hk, index_add_steps]
      exact resetSize_eq (index_lt _) hkpos hklt
    have hlength : (resetLoop (numItems WindowSize Resolution) (index WindowSize Resolution first)
        (numItems WindowSize Resolution)
        (index WindowSize Resolution w.beginningOfActiveWindow)).length = k := by
      rw [hplaces, List.length_map, List.length_range]
    rw [if_neg hjump]
    simp only [hsize, require_of (And.intro hkpos hklt), require_of hlength]
    refine ⟨_, rfl, rfl, fun n hn => ?_⟩
    obtain ⟨hmod, hlo, hhi⟩ := holds_iff.1 hn
    have hmem := index_mem_resetLoop hb hfirst hlt hnear hmod hlo hhi
    split_ifs with hin
    · exact if_neg fun h => absurd (hmem.1 h) (by lia)
    · exact if_pos (hmem.2 (by lia))

end Advance

/-! ## The window as a map -/

section Entries

variable {w : SequenceWithActiveWindow WindowSize Resolution ItemType} {n m : SeqNum}

variable (w n) in
/-- The item of a number; a number outside of the window has a reset one. -/
def entry : ItemType :=
  if w.Holds n then w.lookup n else default

theorem entry_eq_lookup (h : w.Holds n) : w.entry n = w.lookup n := if_pos h

@[simp] theorem entry_resetAll (first n : SeqNum) :
    (resetAll first : SequenceWithActiveWindow WindowSize Resolution ItemType).entry n = default := by
  unfold entry
  split
  · rfl
  · rfl

variable [shape : WindowShape WindowSize Resolution]

theorem entry_set (hn : w.Holds n) (item : ItemType) (m : SeqNum) :
    (w.set n item).entry m = if m = n then item else w.entry m := by
  unfold entry
  by_cases hm : w.Holds m
  · rw [if_pos hm, if_pos ((holds_set w n m item).2 hm), lookup_set hn hm]
  · have hne : m ≠ n := by
      rintro rfl
      exact hm hn
    rw [if_neg hm, if_neg hne, if_neg (fun h => hm ((holds_set w n m item).1 h))]

/-- **Moving the window** keeps the items of the numbers that stay and resets all others. -/
theorem entry_advanceActiveWindow (hb : w.beginningOfActiveWindow % (Resolution : Int) = 0)
    (h : w.advanceActiveWindow first = .ok w') :
    w'.beginningOfActiveWindow = first ∧ first % (Resolution : Int) = 0 ∧
      ∀ n, w'.entry n = if first ≤ n ∧ n < first + WindowSize then w.entry n else default := by
  obtain ⟨hfirst, hrest⟩ := require_bind_eq_ok h
  obtain ⟨hle, -⟩ := require_bind_eq_ok hrest
  obtain ⟨w₁, hw₁, hbegin, hlookup⟩ := advanceActiveWindow_spec hb hfirst hle
  rw [hw₁] at h
  obtain rfl := Except.ok.inj h
  refine ⟨hbegin, hfirst, ?_⟩
  intro n
  split_ifs with hin
  · by_cases hmod : n % (Resolution : Int) = 0
    · have hholds : w₁.Holds n := holds_iff.2 ⟨hmod, by rw [hbegin]; exact hin⟩
      rw [entry_eq_lookup hholds, hlookup n hholds]
      unfold entry
      by_cases hold : n < w.beginningOfActiveWindow + WindowSize
      · rw [if_pos hold, if_pos (holds_iff.2 ⟨hmod, le_trans hle hin.1, hold⟩)]
      · rw [if_neg hold, if_neg (fun hw => hold (holds_iff.1 hw).2.2)]
    · unfold entry
      rw [if_neg (fun hw => hmod (holds_iff.1 hw).1), if_neg (fun hw => hmod (holds_iff.1 hw).1)]
  · refine if_neg fun hw => hin ?_
    obtain ⟨-, hlo, hhi⟩ := holds_iff.1 hw
    rw [hbegin] at hlo hhi
    exact ⟨hlo, hhi⟩

end Entries

/-! ## Runs

A client writes through the reference that `get` returns, moves the window and resets it. Whatever it
does, the ring represents a map whose window moves in the same way. -/

/-- The operations that change a window. -/
inductive Op (ItemType : Type) where
  | write (n : SeqNum) (item : ItemType)
  | advanceActiveWindow (first : SeqNum)
  | resetAll (first : SeqNum)

/-- One operation. -/
def perform :
    Op ItemType → Except Failure (SequenceWithActiveWindow WindowSize Resolution ItemType)
  | .write n item => do
      let _ ← w.get n
      pure (w.set n item)
  | .advanceActiveWindow first => w.advanceActiveWindow first
  | .resetAll first => do
      Assert (first % (Resolution : Int) = 0)
      pure (resetAll first)

/-- The places that `advanceActiveWindow` resets, one after the other. -/
def resetPlaces (first : SeqNum) : List ℕ :=
  if first = w.beginningOfActiveWindow then []
  else if (WindowSize : Int) ≤ first - w.beginningOfActiveWindow then
    List.range (numItems WindowSize Resolution)
  else
    resetLoop (numItems WindowSize Resolution) (index WindowSize Resolution first)
      (numItems WindowSize Resolution) (index WindowSize Resolution w.beginningOfActiveWindow)

/-- What the window stands for: a map from the numbers from `first` on. -/
structure WindowMap (ItemType : Type) where
  first : SeqNum
  item : SeqNum → ItemType

namespace WindowMap

variable (WindowSize Resolution)

/-- The numbers of the window. -/
def Covers (m : WindowMap ItemType) (n : SeqNum) : Prop :=
  n % (Resolution : Int) = 0 ∧ m.first ≤ n ∧ n < m.first + WindowSize

/-- Numbers that stay in the window keep their item. -/
def perform (m : WindowMap ItemType) : Op ItemType → WindowMap ItemType
  | .write n item => { m with item := Function.update m.item n item }
  | .advanceActiveWindow first =>
      ⟨first, fun n => if n < m.first + WindowSize then m.item n else default⟩
  | .resetAll first => ⟨first, fun _ => default⟩

/-- The arguments respect the window; sequence numbers are not negative. -/
def Respects (m : WindowMap ItemType) : Op ItemType → Prop
  | .write n _ => m.Covers WindowSize Resolution n
  | .advanceActiveWindow first => first % (Resolution : Int) = 0 ∧ m.first ≤ first
  | .resetAll first => first % (Resolution : Int) = 0 ∧ 0 ≤ first

end WindowMap

section Runs

variable {w : SequenceWithActiveWindow WindowSize Resolution ItemType} {m : WindowMap ItemType}

variable (w m) in
/-- The ring holds what the map says. -/
structure Represents : Prop where
  nonneg : 0 ≤ m.first
  mod_eq : m.first % (Resolution : Int) = 0
  first_eq : w.beginningOfActiveWindow = m.first
  get_item : ∀ n, m.Covers WindowSize Resolution n → w.get n = .ok (m.item n)

omit [Inhabited ItemType] in
theorem Represents.holds_iff_covers (h : w.Represents m) {n : SeqNum} :
    w.Holds n ↔ m.Covers WindowSize Resolution n := by
  rw [holds_iff, h.first_eq]
  rfl

omit [Inhabited ItemType] in
theorem Represents.lookup_eq (h : w.Represents m) {n : SeqNum}
    (hn : m.Covers WindowSize Resolution n) : w.lookup n = m.item n :=
  (get_eq_ok_iff.1 (h.get_item n hn)).2

theorem represents_resetAll (h0 : 0 ≤ first) (hmod : first % (Resolution : Int) = 0) :
    (resetAll first : SequenceWithActiveWindow WindowSize Resolution ItemType).Represents
      ⟨first, fun _ => default⟩ :=
  ⟨h0, hmod, rfl, fun _ hn => get_eq (holds_iff.2 hn)⟩

variable [shape : WindowShape WindowSize Resolution]

/-- **One operation** fails no assertion and does to the ring what it does to the map. -/
theorem Represents.step (h : w.Represents m) (op : Op ItemType)
    (hop : m.Respects WindowSize Resolution op) :
    ∃ w', w.perform op = .ok w' ∧ w'.Represents (m.perform WindowSize op) := by
  cases op with
  | write n item =>
    have hn : w.Holds n := h.holds_iff_covers.2 hop
    refine ⟨w.set n item, ?_, h.nonneg, h.mod_eq, h.first_eq, ?_⟩
    · simp only [perform, get_eq hn]
      rfl
    · intro k hk
      have hk' : w.Holds k := h.holds_iff_covers.2 hk
      rw [get_eq ((holds_set w n k item).2 hk'), lookup_set hn hk' item]
      simp only [WindowMap.perform, Function.update_apply]
      rw [h.lookup_eq hk]
  | advanceActiveWindow first =>
    obtain ⟨hmod, hle⟩ := hop
    obtain ⟨w', hw', hbegin, hlookup⟩ := advanceActiveWindow_spec (w := w)
      (by rw [h.first_eq, h.mod_eq]) hmod (by rw [h.first_eq]; exact hle)
    refine ⟨w', hw', le_trans h.nonneg hle, hmod, hbegin, ?_⟩
    intro n hn
    have hn' : w'.Holds n := holds_iff.2 (by rw [hbegin]; exact hn)
    rw [get_eq hn', hlookup n hn', h.first_eq]
    simp only [WindowMap.perform]
    by_cases hstays : n < m.first + WindowSize
    · rw [if_pos hstays, if_pos hstays, h.lookup_eq ⟨hn.1, le_trans hle hn.2.1, hstays⟩]
    · rw [if_neg hstays, if_neg hstays]
  | resetAll first =>
    refine ⟨_, ?_, represents_resetAll hop.2 hop.1⟩
    simp only [perform, Assert, require_of hop.1]
    rfl

/-- Moving the window resets no place twice, and exactly the places of new numbers. -/
theorem Represents.resets (h : w.Represents m)
    (hop : m.Respects WindowSize Resolution (.advanceActiveWindow first)) :
    (w.resetPlaces first).Nodup ∧
      ∀ n, (m.perform WindowSize (.advanceActiveWindow first)).Covers WindowSize Resolution n →
        (index WindowSize Resolution n ∈ w.resetPlaces first ↔
          ¬ m.Covers WindowSize Resolution n) := by
  obtain ⟨hmod, hle⟩ := hop
  -- a number of the moved window is new if it lies behind the old one
  have hnew : ∀ n, n % (Resolution : Int) = 0 → first ≤ n →
      (¬ m.Covers WindowSize Resolution n ↔ m.first + WindowSize ≤ n) := by
    intro n hn hlo
    simp only [WindowMap.Covers, hn, le_trans hle hlo, true_and, not_lt]
  unfold resetPlaces
  rw [h.first_eq]
  split_ifs with heq hjump
  · refine ⟨List.nodup_nil, ?_⟩
    rintro n ⟨hn, hlo, hhi⟩
    rw [hnew n hn hlo]
    simp only [WindowMap.perform] at hhi
    simp only [List.not_mem_nil]
    lia
  · refine ⟨List.nodup_range, ?_⟩
    rintro n ⟨hn, hlo, -⟩
    rw [hnew n hn hlo]
    simp only [WindowMap.perform] at hlo
    simp only [List.mem_range, index_lt]
    lia
  · have hlt : m.first < first := by lia
    have hnear : first - m.first < WindowSize := by lia
    constructor
    · obtain ⟨k, -, hklt, -, hplaces⟩ := resetLoop_leaving h.mod_eq hmod hlt hnear
      rw [hplaces]
      refine List.Nodup.map_on ?_ List.nodup_range
      intro i hi j hj hsame
      rw [index_add_steps, index_add_steps] at hsame
      exact Nat.ModEq.eq_of_lt_of_lt (Nat.ModEq.add_left_cancel' _ hsame)
        (lt_trans (List.mem_range.1 hi) hklt) (lt_trans (List.mem_range.1 hj) hklt)
    · rintro n ⟨hn, hlo, hhi⟩
      rw [hnew n hn hlo]
      exact index_mem_resetLoop h.mod_eq hmod hlt hnear hn hlo hhi

/-- An operation on the window and on the map. -/
def next (s : SequenceWithActiveWindow WindowSize Resolution ItemType × WindowMap ItemType)
    (op : Op ItemType) :
    Option (SequenceWithActiveWindow WindowSize Resolution ItemType × WindowMap ItemType) :=
  (s.1.perform op).toOption.map fun w => (w, s.2.perform WindowSize op)

/-- The runs whose arguments respect the window. -/
def Runs (first : SeqNum)
    (s : SequenceWithActiveWindow WindowSize Resolution ItemType × WindowMap ItemType) : Prop :=
  Machine.Reaches next (fun s op => s.2.Respects WindowSize Resolution op)
    (resetAll first, ⟨first, fun _ => default⟩) s

omit shape in
theorem Runs.snoc (h : Runs first (w, m)) (op : Op ItemType)
    (hop : m.Respects WindowSize Resolution op) (hw : w.perform op = .ok w') :
    Runs first (w', m.perform WindowSize op) :=
  Machine.Reaches.snoc h hop (by simp [next, hw, Except.toOption])

theorem Runs.represents (h0 : 0 ≤ first) (hmod : first % (Resolution : Int) = 0)
    (h : Runs first (w, m)) : w.Represents m := by
  apply Machine.Reaches.invariant (fun s => s.1.Represents s.2) _ _ h
  · exact represents_resetAll h0 hmod
  · intro s op s' hs hop hnext
    obtain ⟨w', hw', hrep⟩ := hs.step op hop
    simp only [next, hw', Except.toOption, Option.map_some, Option.some.injEq] at hnext
    rw [← hnext]
    exact hrep

/-- **The window is a map.** After every run whose arguments respect the window, reading gives the
    items of the map, no two numbers of the window share a place, every further operation that
    respects the window fails no assertion and does the same to the map, and moving the window resets
    no place twice, and exactly those of new numbers. -/
theorem Runs.refines_map {first : SeqNum} (h0 : 0 ≤ first)
    (hmod : first % (Resolution : Int) = 0) (h : Runs first (w, m)) :
    w.Represents m ∧
      (∀ n n', m.Covers WindowSize Resolution n → m.Covers WindowSize Resolution n' →
        index WindowSize Resolution n = index WindowSize Resolution n' → n = n') ∧
      (∀ op, m.Respects WindowSize Resolution op →
        ∃ w', w.perform op = .ok w' ∧ w'.Represents (m.perform WindowSize op)) ∧
      ∀ f, m.Respects WindowSize Resolution (.advanceActiveWindow f) →
        (w.resetPlaces f).Nodup ∧
          ∀ n, (m.perform WindowSize (.advanceActiveWindow f)).Covers WindowSize Resolution n →
            (index WindowSize Resolution n ∈ w.resetPlaces f ↔
              ¬ m.Covers WindowSize Resolution n) := by
  have hrep := h.represents h0 hmod
  refine ⟨hrep, ?_, hrep.step, fun f => hrep.resets⟩
  intro n n' hn hn' hsame
  exact index_injective hn.1 hn'.1 hn.2.1 hn.2.2 hn'.2.1 hn'.2.2 hsame

omit [Inhabited ItemType] shape in
/-- A number that stays in the window of checkpoints keeps its item. -/
theorem refines_map_of_checkpoints :
    ∃ (w : SequenceWithActiveWindow 450 150 ℕ) (m : WindowMap ℕ), Runs 0 (w, m) ∧
      w.get 150 = .ok 7 ∧ w.get 450 = .ok 0 := by
  have hstart : Runs 0 ((resetAll 0 : SequenceWithActiveWindow 450 150 ℕ), ⟨0, fun _ => 0⟩) :=
    Machine.Reaches.refl _
  have hwrite : WindowMap.Respects 450 150 ⟨0, fun _ => 0⟩ (.write 150 7) :=
    ⟨rfl, by decide, by decide⟩
  obtain ⟨w, hw, -⟩ := (hstart.refines_map (le_refl 0) rfl).2.2.1 _ hwrite
  have hrun := hstart.snoc _ hwrite hw
  have hmove : WindowMap.Respects 450 150 ⟨0, Function.update (fun _ => 0) 150 7⟩
    (.advanceActiveWindow 150) := ⟨rfl, by decide⟩
  obtain ⟨w', hw', hrep⟩ := (hrun.refines_map (le_refl 0) rfl).2.2.1 _ hmove
  exact ⟨w', _, hrun.snoc _ hmove hw', hrep.get_item 150 ⟨rfl, by decide, by decide⟩,
    hrep.get_item 450 ⟨rfl, by decide, by decide⟩⟩

end Runs

end SequenceWithActiveWindow

end ConcordBft
