import ConcordBft.SimpleKVBC.ReplicaImp
import Mathlib.Data.Finset.Max
import Mathlib.Data.Fintype.Basic

set_option autoImplicit false

/-! # Versioned reads of the key-value blockchain

A read of a key at a version gives the value of the newest block up to that version that has the key.
`valueAt` and `ReadOf` say this over the blocks that were added, without the database; the lookup is
one lower bound in the database. -/

namespace ConcordBft.SimpleKVBC

/-- The value that the block with an id gives to a key. -/
def valueAt (chain : BlockId → Option StoredBlock) (i : BlockId) (key : Bytes) : Option Bytes :=
  (chain i).bind fun b => valueIn b.updates key

/-- What a read of `key` at version `v` has to return. -/
inductive ReadOf (chain : BlockId → Option StoredBlock) (v : BlockId) (key : Bytes) :
    Bytes × BlockId → Prop
  | newest {x : Bytes} {i : BlockId} (hle : i ≤ v) (hvalue : valueAt chain i key = some x)
      (hnewest : ∀ j, j ≤ v → (valueAt chain j key).isSome → j ≤ i) : ReadOf chain v key (x, i)
  | nothing (hnone : ∀ j, j ≤ v → valueAt chain j key = none) : ReadOf chain v key ([], 0)

/-- Of finitely many versions one is the newest. -/
theorem exists_newest {p : BlockId → Prop} (h : ∃ i, p i) : ∃ i, p i ∧ ∀ j, p j → j ≤ i := by
  classical
  obtain ⟨i, hi⟩ := h
  obtain ⟨k, hk, hmax⟩ := Finset.exists_max_image (Finset.univ.filter p) id
    ⟨i, Finset.mem_filter.2 ⟨Finset.mem_univ i, hi⟩⟩
  exact ⟨k, (Finset.mem_filter.1 hk).2, fun j hj =>
    hmax j (Finset.mem_filter.2 ⟨Finset.mem_univ j, hj⟩)⟩

namespace Run

variable {cfg : KVBCConfig} {run : Run} {chain : BlockId → Option StoredBlock}

/-- **A read over the database** is a read over the blocks. -/
theorem Refines.readOf {a : BlockchainDBAdapter} (h : Refines a chain) (v : BlockId) (key : Bytes) :
    ReadOf chain v key (a.getKeyByReadVersion v key) := by
  obtain ⟨m, hstores, -, hdata⟩ := h
  have hmem : ∀ j y, (DbKey.data key j, y) ∈ m ↔ valueAt chain j key = some y := by
    intro j y
    rw [← OrderedMap.find?_eq_some_iff, hdata]
    rfl
  by_cases hsome : ∃ i, i ≤ v ∧ (valueAt chain i key).isSome
  · obtain ⟨i, ⟨hle, hi⟩, hnewest⟩ := exists_newest hsome
    obtain ⟨x, hx⟩ := Option.isSome_iff_exists.1 hi
    have hread := hstores.getKeyByReadVersion_of_mem ((hmem i x).2 hx) hle fun j y hj hjv =>
      hnewest j ⟨hjv, Option.isSome_iff_exists.2 ⟨y, (hmem j y).1 hj⟩⟩
    rw [hread]
    exact .newest hle hx fun j hjv hj => hnewest j ⟨hjv, hj⟩
  · have hnone : ∀ j, j ≤ v → valueAt chain j key = none := by
      intro j hj
      rw [← Option.not_isSome_iff_eq_none]
      exact fun hs => hsome ⟨j, hj, hs⟩
    have hread : a.getKeyByReadVersion v key = ([], 0) := by
      refine hstores.getKeyByReadVersion_of_none fun j y hj hle => ?_
      have hvalue := (hmem j y).1 hj
      rw [hnone j hle] at hvalue
      simp at hvalue
    rw [hread]
    exact .nothing hnone

/-- A conflict is only ruled out when no block of the range has the key. -/
theorem noConflict {from_ to_ : BlockId} {key : Bytes} {r : ReplicaImp}
    (hread : ReadOf chain to_ key (r.get to_ key))
    (h : r.mayHaveConflictBetween key from_ to_ = false) (i : BlockId) (hlo : from_ ≤ i)
    (hhi : i ≤ to_) : valueAt chain i key = none := by
  have hbelow : (r.get to_ key).2 < from_ := by
    by_contra hnot
    rw [ReplicaImp.mayHaveConflictBetween, if_neg hnot] at h
    simp at h
  rw [← Option.not_isSome_iff_eq_none]
  intro hsome
  generalize r.get to_ key = p at hread hbelow
  cases hread with
  | newest _ _ hnewest => exact absurd (lt_of_le_of_lt (hnewest i hhi hsome) hbelow) (not_lt.2 hlo)
  | nothing hnone =>
    rw [hnone i hhi] at hsome
    simp at hsome

/-- **Versioned reads.** After any calls that add blocks, in any order, every further call returns, a
    read gives the value of the newest block up to its version that has the key, and a conflict is only
    ruled out where no block of the range has the key. -/
theorem reads_newest_version (h : Reaches cfg {} run) :
    (∀ call, run.Allowed call → (next cfg run call).isSome) ∧
      (∀ v key, ReadOf run.chain v key (run.replica.get v key)) ∧
      ∀ key fromBlock toBlock, run.replica.mayHaveConflictBetween key fromBlock toBlock = false →
        ∀ i, fromBlock ≤ i → i ≤ toBlock → valueAt run.chain i key = none := by
  have hinv := h.inv
  refine ⟨fun call hallowed => ?_, fun v key => hinv.refines.readOf v key, ?_⟩
  · obtain ⟨run', hnext, -⟩ := hinv.next cfg hallowed
    rw [hnext]
    rfl
  · intro key fromBlock toBlock hfalse i hlo hhi
    exact noConflict (hinv.refines.readOf toBlock key) hfalse i hlo hhi

/-- A configuration whose digests are all zero. -/
def zeroDigests : KVBCConfig := ⟨1000, fun _ _ => List.replicate 32 0, by simp⟩

/-- A transfer puts block 3 and then block 1; the application adds block 4 in between. The key `[1]` is
    in all of them, and `[1, 2]` only in block 4. -/
def callsOfTransfer : List Call :=
  [.putBlock 3 (blockBytes [([1], [30])] (List.replicate 32 0)),
    .addBlock [([1], [40]), ([1, 2], [45])],
    .putBlock 1 (blockBytes [([1], [10])] (List.replicate 32 0))]

theorem reads_newest_version_callsOfTransfer :
    ∃ run, Reaches zeroDigests {} run ∧ ReadOf run.chain 2 [1] (run.replica.get 2 [1]) ∧
      run.replica.get 2 [1] = ([10], 1) ∧ run.replica.get 3 [1] = ([30], 3) ∧
      run.replica.get 9 [1] = ([40], 4) ∧ run.replica.get 3 [1, 2] = ([], 0) ∧
      run.replica.mayHaveConflictBetween [1, 2] 1 3 = false := by
  obtain ⟨run, hreaches, hreads⟩ : ∃ run, Reaches zeroDigests {} run ∧
      run.replica.get 2 [1] = ([10], 1) ∧ run.replica.get 3 [1] = ([30], 3) ∧
      run.replica.get 9 [1] = ([40], 4) ∧ run.replica.get 3 [1, 2] = ([], 0) ∧
      run.replica.mayHaveConflictBetween [1, 2] 1 3 = false :=
    Machine.exists_reaches callsOfTransfer (by decide +kernel)
  exact ⟨run, hreaches, (reads_newest_version hreaches).2.1 2 [1], hreads⟩

end Run

end ConcordBft.SimpleKVBC
