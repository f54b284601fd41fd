import ConcordBft.Failure
import Mathlib.Data.Finset.Sort

set_option autoImplicit false

/-! # Sets of share ids (`VectorOfShares`)

A bitset over the positions `0 .. MAX_NUM_OF_SHARES - 1` with a counter; share ids (`ShareID`) are
positions plus one. The loops of the library run from `first` over `next` until `isEnd`: `ids` is the list of
the ids they visit, and it is the set in increasing order. -/

namespace ConcordBft.Threshsign

open List

/-- `MAX_NUM_OF_SHARES` -/
def maxNumOfShares : ℕ := 2048

/-- `data` holds the positions of the bits that are set. -/
@[ext]
structure VectorOfShares where
  data : Finset ℕ
  size : ℕ
  bounded : ∀ i ∈ data, i < maxNumOfShares
  size_eq : size = data.card

namespace VectorOfShares

/-- The constructor. -/
def empty : VectorOfShares :=
  { data := ∅, size := 0, bounded := by simp, size_eq := by simp }

variable (v : VectorOfShares)

/-- The number of ids. -/
def count : ℕ := v.size

/-- Whether an id is in the set. -/
def contains (e : ℕ) : Bool := decide (e - 1 ∈ v.data)

/-- Set the bit of an id that passed the assertions of `add`. -/
def setBit (e : ℕ) (h : 1 ≤ e ∧ e ≤ maxNumOfShares) : VectorOfShares :=
  if hd : e - 1 ∈ v.data then v
  else
    { data := insert (e - 1) v.data
      size := v.size + 1
      bounded := by
        intro i hi
        rcases Finset.mem_insert.1 hi with rfl | hi
        · omega
        · exact v.bounded i hi
      size_eq := by rw [Finset.card_insert_of_notMem hd, v.size_eq] }

/-- Adds an id. -/
def add (e : ℕ) : Except Failure VectorOfShares :=
  if h : 1 ≤ e ∧ e ≤ maxNumOfShares then .ok (v.setBit e h) else .error .assertion

/-- `current >= 0` holds of every id here. -/
def next (current : ℕ) : ℕ :=
  if current + 1 > maxNumOfShares then maxNumOfShares + 1
  else
    match (List.range' current (maxNumOfShares - current)).find? (fun i => decide (i ∈ v.data)) with
    | some i => i + 1
    | none => maxNumOfShares + 1

/-- The smallest id. -/
def first : ℕ := v.next 0

/-- Whether a loop over the ids is done. -/
def isEnd (e : ℕ) : Bool := decide (maxNumOfShares < e)

/-- The ids visited by a loop that is at `id` and makes at most `fuel` rounds. -/
def idsFrom : ℕ → ℕ → List ℕ
  | 0, _ => []
  | fuel + 1, id => if isEnd id then [] else id :: idsFrom fuel (v.next id)

/-- The ids visited by `for (id = first(); !isEnd(id); id = next(id))`: every round moves on by at
    least one id. -/
def ids : List ℕ := v.idsFrom maxNumOfShares v.first

/-- `getByteCount` -/
def getByteCount : ℕ :=
  if maxNumOfShares % 8 = 0 then maxNumOfShares / 8 else maxNumOfShares / 8 + 1

/-- `toBytes` into a buffer of `getByteCount` bytes. -/
def toBytes : Bytes :=
  v.ids.foldl
    (fun buf id1 =>
      let id0 := id1 - 1
      buf.modify (id0 / 8) fun byte => byte ||| ((1 : UInt8) <<< UInt8.ofNat (id0 % 8)))
    (List.replicate getByteCount 0)

/-- The loop over the bits of byte number `b`. -/
def addIdsOfByte (b : ℕ) (byte : UInt8) : Except Failure VectorOfShares :=
  (List.range 8).foldlM
    (fun v c => if byte.toNat.testBit c then v.add (b * 8 + (c + 1)) else pure v) v

/-- `fromBytes` -/
def fromBytes (buf : Bytes) : Except Failure VectorOfShares :=
  buf.zipIdx.foldlM (fun v (byte, b) => v.addIdsOfByte b byte) empty

/-! ## The ids of a set -/

variable {v}

theorem mem_setBit {e : ℕ} {h : 1 ≤ e ∧ e ≤ maxNumOfShares} {i : ℕ} :
    i ∈ (v.setBit e h).data ↔ i = e - 1 ∨ i ∈ v.data := by
  unfold setBit
  by_cases hd : e - 1 ∈ v.data
  · rw [dif_pos hd]
    constructor
    · exact Or.inr
    · rintro (rfl | hi)
      · exact hd
      · exact hi
  · rw [dif_neg hd]
    simp

theorem next_eq_end {current : ℕ} (h : ∀ i ∈ v.data, i < current) :
    v.next current = maxNumOfShares + 1 := by
  unfold next
  by_cases hend : current + 1 > maxNumOfShares
  · rw [if_pos hend]
  · rw [if_neg hend]
    have hnone : (range' current (maxNumOfShares - current)).find?
        (fun i => decide (i ∈ v.data)) = none := by
      rw [find?_eq_none]
      intro i hi
      rw [mem_range'_1] at hi
      rw [decide_eq_true_eq]
      intro hmem
      exact absurd (h i hmem) (by omega)
    rw [hnone]

theorem next_eq_of_first {current i : ℕ} (hi : i ∈ v.data) (hle : current ≤ i)
    (hfirst : ∀ j ∈ v.data, current ≤ j → i ≤ j) : v.next current = i + 1 := by
  have hbound := v.bounded i hi
  unfold next
  rw [if_neg (by omega)]
  have hsome : (range' current (maxNumOfShares - current)).find?
      (fun i => decide (i ∈ v.data)) = some i := by
    rw [find?_eq_some_iff_append]
    refine ⟨decide_eq_true hi, range' current (i - current),
      range' (i + 1) (maxNumOfShares - i - 1), ?_, ?_⟩
    · rw [← range'_succ, show i = current + 1 * (i - current) by omega]
      rw [show current + 1 * (i - current) - current = i - current by omega]
      rw [range'_append]
      congr 1
      omega
    · intro j hj
      rw [mem_range'_1] at hj
      rw [Bool.not_eq_true', decide_eq_false_iff_not]
      intro hmem
      have := hfirst j hmem hj.1
      omega
  rw [hsome]

/-- What a loop visits from `id` on: with the positions below `current` behind it, the rest of the
    set in increasing order. -/
theorem idsFrom_eq (v : VectorOfShares) (fuel current : ℕ)
    (hfuel : (v.data.filter fun i => current ≤ i).card ≤ fuel) :
    v.idsFrom fuel (v.next current) =
      ((v.data.filter fun i => current ≤ i).sort (· ≤ ·)).map (· + 1) := by
  induction fuel generalizing current with
  | zero =>
    have hempty : v.data.filter (fun i => current ≤ i) = ∅ :=
      Finset.card_eq_zero.1 (Nat.le_zero.1 hfuel)
    simp [idsFrom, hempty]
  | succ fuel ih =>
    by_cases hempty : v.data.filter (fun i => current ≤ i) = ∅
    · have hall : ∀ i ∈ v.data, i < current := by
        intro i hi
        by_contra hle
        have : i ∈ v.data.filter (fun i => current ≤ i) :=
          Finset.mem_filter.2 ⟨hi, Nat.le_of_not_lt hle⟩
        simp [hempty] at this
      rw [next_eq_end hall, hempty]
      simp [idsFrom, isEnd]
    · -- the smallest position from `current` on comes next
      have hne := Finset.nonempty_iff_ne_empty.2 hempty
      obtain ⟨hmem, hle⟩ := Finset.mem_filter.1 (Finset.min'_mem _ hne)
      generalize hi : (v.data.filter fun i => current ≤ i).min' hne = i at hmem hle
      have hmin : ∀ j ∈ v.data, current ≤ j → i ≤ j := by
        intro j hj hjle
        rw [← hi]
        exact Finset.min'_le _ j (Finset.mem_filter.2 ⟨hj, hjle⟩)
      have hrest : v.data.filter (fun j => current ≤ j) =
          insert i (v.data.filter fun j => i + 1 ≤ j) := by
        ext j
        rw [Finset.mem_insert, Finset.mem_filter, Finset.mem_filter]
        constructor
        · rintro ⟨hj, hjle⟩
          have := hmin j hj hjle
          by_cases hji : j = i
          · exact Or.inl hji
          · exact Or.inr ⟨hj, by omega⟩
        · rintro (rfl | ⟨hj, hjle⟩)
          · exact ⟨hmem, hle⟩
          · exact ⟨hj, by omega⟩
      have hnot : i ∉ v.data.filter fun j => i + 1 ≤ j := by simp
      have hcard : (v.data.filter fun j => i + 1 ≤ j).card ≤ fuel := by
        rw [hrest, Finset.card_insert_of_notMem hnot] at hfuel
        omega
      have hbound := v.bounded i hmem
      rw [next_eq_of_first hmem hle hmin, idsFrom, if_neg (by simp [isEnd]; omega), ih _ hcard,
        hrest, Finset.sort_insert _ (fun j hj => by simp at hj; omega) hnot]
      rfl

/-- **The loops visit the set in increasing order.** -/
theorem ids_eq (v : VectorOfShares) : v.ids = (v.data.sort (· ≤ ·)).map (· + 1) := by
  have hall : v.data.filter (fun i => 0 ≤ i) = v.data := by simp
  have hcard : (v.data.filter fun i => 0 ≤ i).card ≤ maxNumOfShares := by
    rw [hall]
    have hsub : v.data ⊆ Finset.range maxNumOfShares := fun i hi =>
      Finset.mem_range.2 (v.bounded i hi)
    calc v.data.card ≤ (Finset.range maxNumOfShares).card := Finset.card_le_card hsub
      _ = maxNumOfShares := Finset.card_range _
  rw [ids, first, idsFrom_eq v _ 0 hcard, hall]

@[simp] theorem ids_empty : empty.ids = [] := by simp [ids_eq, empty]

theorem mem_ids {id : ℕ} : id ∈ v.ids ↔ 1 ≤ id ∧ id - 1 ∈ v.data := by
  rw [ids_eq, mem_map]
  constructor
  · rintro ⟨i, hi, rfl⟩
    exact ⟨Nat.le_add_left 1 i, by simpa using hi⟩
  · rintro ⟨hpos, hmem⟩
    exact ⟨id - 1, by simpa using hmem, by omega⟩

theorem length_ids (v : VectorOfShares) : v.ids.length = v.count := by
  rw [ids_eq, length_map, Finset.length_sort, count, v.size_eq]

theorem sortedLT_ids (v : VectorOfShares) : v.ids.Pairwise (· < ·) := by
  rw [ids_eq, pairwise_map]
  exact v.data.sortedLT_sort.pairwise.imp fun h => Nat.succ_lt_succ h

theorem le_of_mem_ids {id : ℕ} (h : id ∈ v.ids) : id ≤ maxNumOfShares := by
  obtain ⟨hpos, hmem⟩ := mem_ids.1 h
  have := v.bounded _ hmem
  omega

/-! ## Adding ids -/

theorem add_eq {e : ℕ} (h : 1 ≤ e ∧ e ≤ maxNumOfShares) :
    v.add e = .ok (v.setBit e h) := dif_pos h

theorem ext_data {v w : VectorOfShares} (h : ∀ i, i ∈ v.data ↔ i ∈ w.data) : v = w := by
  have hdata : v.data = w.data := Finset.ext h
  apply VectorOfShares.ext hdata
  rw [v.size_eq, w.size_eq, hdata]

/-! ## Serialisation

Bit `i` of the serialised vector is bit `i % 8` of byte `i / 8`. -/

/-- Bit `i` of a buffer. -/
def bitAt (buf : Bytes) (i : ℕ) : Bool := ((buf[i / 8]?).getD 0).toNat.testBit (i % 8)

theorem testBit_or_one_shiftLeft (byte : UInt8) {c d : ℕ} (hc : c < 8) :
    (byte ||| ((1 : UInt8) <<< UInt8.ofNat c)).toNat.testBit d =
      (byte.toNat.testBit d || decide (c = d)) := by
  have hmasks : ∀ c < 8, ((1 : UInt8) <<< UInt8.ofNat c).toNat = 2 ^ c := by decide
  rw [UInt8.toNat_or, Nat.testBit_or, hmasks c hc, Nat.testBit_two_pow]

theorem bitAt_modify {buf : Bytes} {id0 : ℕ} (hlen : id0 / 8 < buf.length) (i : ℕ) :
    bitAt (buf.modify (id0 / 8) fun byte => byte ||| ((1 : UInt8) <<< UInt8.ofNat (id0 % 8))) i =
      (bitAt buf i || decide (id0 = i)) := by
  unfold bitAt
  rw [getElem?_modify]
  by_cases hbyte : id0 / 8 = i / 8
  · obtain ⟨byte, hget⟩ : ∃ byte, buf[i / 8]? = some byte :=
      ⟨_, getElem?_eq_getElem (hbyte ▸ hlen)⟩
    have hiff : id0 % 8 = i % 8 ↔ id0 = i := by omega
    rw [hget, Option.map_eq_map, Option.map_some, if_pos hbyte, Option.getD_some, Option.getD_some,
      testBit_or_one_shiftLeft byte (Nat.mod_lt _ (by decide)), decide_eq_decide.2 hiff]
  · have hne : id0 ≠ i := fun h => hbyte (by rw [h])
    simp [hbyte, hne]

/-- The loop of `toBytes`: it sets the bits of the ids it visits. -/
theorem bitAt_foldl {ids : List ℕ} {buf : Bytes} (hids : ∀ id ∈ ids, (id - 1) / 8 < buf.length)
    (i : ℕ) :
    bitAt (ids.foldl (fun buf id1 => buf.modify ((id1 - 1) / 8) fun byte =>
        byte ||| ((1 : UInt8) <<< UInt8.ofNat ((id1 - 1) % 8))) buf) i =
      (bitAt buf i || decide (∃ id ∈ ids, id - 1 = i)) := by
  induction ids generalizing buf with
  | nil => simp
  | cons id rest ih =>
    have hid := hids id (mem_cons_self ..)
    have hrest : ∀ id' ∈ rest, (id' - 1) / 8 < (buf.modify ((id - 1) / 8) fun byte =>
        byte ||| ((1 : UInt8) <<< UInt8.ofNat ((id - 1) % 8))).length := by
      intro id' hid'
      rw [length_modify]
      exact hids id' (mem_cons_of_mem _ hid')
    rw [foldl_cons, ih hrest, bitAt_modify hid]
    simp [Bool.or_assoc]

theorem bitAt_toBytes (v : VectorOfShares) (i : ℕ) : bitAt v.toBytes i = decide (i ∈ v.data) := by
  have hids : ∀ id ∈ v.ids, (id - 1) / 8 < (replicate getByteCount (0 : UInt8)).length := by
    intro id hid
    have hbound := v.bounded _ (mem_ids.1 hid).2
    rw [length_replicate, show getByteCount = 256 by decide]
    rw [show maxNumOfShares = 2048 from rfl] at hbound
    omega
  have hzero : bitAt (replicate getByteCount 0) i = false := by
    unfold bitAt
    by_cases h : i / 8 < getByteCount <;> simp [h]
  have hmem : (∃ id ∈ v.ids, id - 1 = i) ↔ i ∈ v.data := by
    constructor
    · rintro ⟨id, hid, rfl⟩
      exact (mem_ids.1 hid).2
    · intro hi
      exact ⟨i + 1, mem_ids.2 ⟨Nat.le_add_left 1 i, hi⟩, rfl⟩
  rw [toBytes, bitAt_foldl hids, hzero, Bool.false_or, decide_eq_decide.2 hmem]

theorem length_toBytes (v : VectorOfShares) : v.toBytes.length = getByteCount := by
  unfold toBytes
  have hfold : ∀ (ids : List ℕ) (buf : Bytes),
      (ids.foldl (fun buf id1 => buf.modify ((id1 - 1) / 8) fun byte =>
        byte ||| ((1 : UInt8) <<< UInt8.ofNat ((id1 - 1) % 8))) buf).length = buf.length := by
    intro ids
    induction ids with
    | nil => intro buf; rfl
    | cons id rest ih =>
      intro buf
      rw [foldl_cons, ih, length_modify]
  rw [hfold, length_replicate]

/-- `w` holds the ids of `v` and those of the bits `done` of byte number `b`. -/
def HoldsBits (v : VectorOfShares) (b : ℕ) (byte : UInt8) (done : List ℕ) (w : VectorOfShares) :
    Prop :=
  ∀ i, i ∈ w.data ↔
    i ∈ v.data ∨ i / 8 = b ∧ i % 8 ∈ done ∧ byte.toNat.testBit (i % 8) = true

theorem addIdOfBit_meets {v w : VectorOfShares} {b c : ℕ} {byte : UInt8} {done : List ℕ}
    (hb : b < getByteCount) (hc : c < 8) (hw : HoldsBits v b byte done w) :
    Checked.Meets (fun _ => False) (HoldsBits v b byte (done ++ [c]))
      (if byte.toNat.testBit c then w.add (b * 8 + (c + 1)) else pure w) := by
  rw [show getByteCount = 256 by decide] at hb
  by_cases hbit : byte.toNat.testBit c = true
  · have hid : 1 ≤ b * 8 + (c + 1) ∧ b * 8 + (c + 1) ≤ maxNumOfShares := by
      rw [show maxNumOfShares = 2048 from rfl]
      omega
    rw [if_pos hbit, add_eq hid]
    refine .ok fun i => ?_
    rw [mem_setBit, hw i, mem_append, mem_singleton]
    constructor
    · rintro (rfl | h | ⟨hi, hmem, ht⟩)
      · have hdiv : (b * 8 + (c + 1) - 1) / 8 = b := by omega
        have hmod : (b * 8 + (c + 1) - 1) % 8 = c := by omega
        exact Or.inr ⟨hdiv, Or.inr hmod, by rwa [hmod]⟩
      · exact Or.inl h
      · exact Or.inr ⟨hi, Or.inl hmem, ht⟩
    · rintro (h | ⟨hi, hmem | hmem, ht⟩)
      · exact Or.inr (Or.inl h)
      · exact Or.inr (Or.inr ⟨hi, hmem, ht⟩)
      · exact Or.inl (by omega)
  · rw [if_neg hbit]
    refine .ok fun i => ?_
    rw [hw i, mem_append, mem_singleton]
    constructor
    · rintro (h | ⟨hi, hmem, ht⟩)
      · exact Or.inl h
      · exact Or.inr ⟨hi, Or.inl hmem, ht⟩
    · rintro (h | ⟨hi, hmem | hmem, ht⟩)
      · exact Or.inl h
      · exact Or.inr ⟨hi, hmem, ht⟩
      · exact absurd (hmem ▸ ht) hbit

theorem addIdsOfByte_meets {b : ℕ} (byte : UInt8) (hb : b < getByteCount) (v : VectorOfShares) :
    Checked.Meets (fun _ => False) (fun w : VectorOfShares => ∀ i, i ∈ w.data ↔
        i ∈ v.data ∨ i / 8 = b ∧ byte.toNat.testBit (i % 8) = true) (v.addIdsOfByte b byte) := by
  have hloop : Checked.Meets (fun _ => False) (HoldsBits v b byte (range 8))
      (v.addIdsOfByte b byte) := by
    apply Checked.meets_foldlM (HoldsBits v b byte)
    · simp [HoldsBits]
    · intro done c rest w hsplit hw
      have hc : c < 8 := mem_range.1 (by simp [hsplit])
      exact addIdOfBit_meets hb hc hw
  apply hloop.mono
  intro w hw i
  have hmem : i % 8 ∈ range 8 := mem_range.2 (Nat.mod_lt _ (by decide))
  simp [hw i, hmem]

/-- **Deserialisation** of a buffer of the right size returns the ids of the bits that are set. -/
theorem fromBytes_eq {buf : Bytes} (hlen : buf.length ≤ getByteCount) :
    ∃ v, fromBytes buf = .ok v ∧ ∀ i, i ∈ v.data ↔ bitAt buf i = true := by
  apply Checked.Meets.returns
  have hloop : Checked.Meets (fun _ => False) (fun v : VectorOfShares => ∀ i, i ∈ v.data ↔
      ∃ p ∈ buf.zipIdx, i / 8 = p.2 ∧ p.1.toNat.testBit (i % 8) = true) (fromBytes buf) := by
    apply Checked.meets_foldlM (fun (done : List (UInt8 × ℕ)) (v : VectorOfShares) =>
      ∀ i, i ∈ v.data ↔ ∃ p ∈ done, i / 8 = p.2 ∧ p.1.toNat.testBit (i % 8) = true)
    · simp [empty]
    · intro done p rest v hsplit hv
      have hp : p ∈ buf.zipIdx := by simp [hsplit]
      have hb : p.2 < getByteCount := by
        have := snd_lt_of_mem_zipIdx hp
        omega
      apply (addIdsOfByte_meets p.1 hb v).mono
      intro w hw i
      rw [hw i, hv i]
      simp only [mem_append, mem_singleton]
      constructor
      · rintro (⟨r, hr, hi⟩ | hi)
        · exact ⟨r, Or.inl hr, hi⟩
        · exact ⟨p, Or.inr rfl, hi⟩
      · rintro ⟨r, hr | rfl, hi⟩
        · exact Or.inl ⟨r, hr, hi⟩
        · exact Or.inr hi
  apply hloop.mono
  intro v hv i
  rw [hv i]
  unfold bitAt
  constructor
  · rintro ⟨⟨byte, b⟩, hp, rfl, hbit⟩
    rw [mem_zipIdx_iff_getElem?] at hp
    rwa [hp]
  · intro hbit
    cases hget : buf[i / 8]? with
    | none => simp [hget] at hbit
    | some byte =>
      rw [hget] at hbit
      exact ⟨(byte, i / 8), mem_zipIdx_iff_getElem?.2 hget, rfl, hbit⟩

/-- **Round trip.** -/
theorem fromBytes_toBytes (v : VectorOfShares) : fromBytes v.toBytes = .ok v := by
  obtain ⟨w, hw, hmem⟩ := fromBytes_eq (le_of_eq v.length_toBytes)
  have hwv : w = v := by
    apply ext_data
    intro i
    rw [hmem i, bitAt_toBytes, decide_eq_true_eq]
  rw [hw, hwv]

end VectorOfShares

end ConcordBft.Threshsign
