import ConcordBft.Threshsign.VectorOfShares

set_option autoImplicit false

/-! # Accumulators of signature shares (`ThresholdAccumulatorBase`)

An accumulator keeps the first share of every signer until it has as many as are required. With share
verification switched on a share counts only if it verifies for the expected digest; before the digest
is known it is pending. `verifyShare` is the check of one share under the key of its signer. -/

namespace ConcordBft.Threshsign

open VectorOfShares Checked

structure ThresholdAccumulator (Digest Point : Type) where
  reqSigners : ℕ
  totalSigners : ℕ
  shareVerificationEnabled : Bool
  expectedDigest : Option Digest
  pendingShares : ℕ → Point
  pendingSharesBits : VectorOfShares
  validShares : ℕ → Point
  validSharesBits : VectorOfShares

namespace ThresholdAccumulator

variable {Digest Point : Type}

/-- The constructor. `noShare` is the content of an unused cell. -/
def create (reqSigners totalSigners : ℕ) (withShareVerification : Bool) (noShare : Point) :
    ThresholdAccumulator Digest Point :=
  { reqSigners := reqSigners
    totalSigners := totalSigners
    shareVerificationEnabled := withShareVerification
    expectedDigest := none
    pendingShares := fun _ => noShare
    pendingSharesBits := .empty
    validShares := fun _ => noShare
    validSharesBits := .empty }

variable (verifyShare : Digest → ℕ → Point → Bool) (acc : ThresholdAccumulator Digest Point)

/-- Keep a share that counts. -/
def addValid (signer : ℕ) (sigShare : Point) :
    Except Failure (ThresholdAccumulator Digest Point) := do
  let bits ← acc.validSharesBits.add signer
  pure { acc with
    validShares := Function.update acc.validShares signer sigShare
    validSharesBits := bits }

/-- Does the share count? Without share verification every share does. -/
def accepts (signer : ℕ) (sigShare : Point) : Bool :=
  !acc.shareVerificationEnabled || acc.expectedDigest.any fun d => verifyShare d signer sigShare

/-- `addNumById`, with the number of shares that it returns. -/
def addNumById (signer : ℕ) (sigShare : Point) :
    Except Failure (ThresholdAccumulator Digest Point × ℕ) := do
  Assert (1 ≤ signer ∧ signer ≤ acc.totalSigners)
  Assert (acc.validSharesBits.count ≤ acc.reqSigners)
  if acc.shareVerificationEnabled ∧ acc.expectedDigest.isNone then
    -- the digest is not known yet
    if acc.pendingSharesBits.contains signer = false then
      let bits ← acc.pendingSharesBits.add signer
      pure ({ acc with
        pendingShares := Function.update acc.pendingShares signer sigShare
        pendingSharesBits := bits }, bits.count)
    else pure (acc, acc.pendingSharesBits.count)
  else if acc.validSharesBits.count = acc.reqSigners then
    pure (acc, acc.validSharesBits.count)
  else if acc.validSharesBits.contains signer = false then
    if acc.accepts verifyShare signer sigShare then
      let acc ← acc.addValid signer sigShare
      pure (acc, acc.validSharesBits.count)
    else pure (acc, acc.validSharesBits.count)
  else pure (acc, acc.validSharesBits.count)

/-- One round of the loop of `verifyPendingShares`; once there are enough shares the loop ends, and
    the remaining rounds do nothing. -/
def verifyPendingShare (id : ℕ) : Except Failure (ThresholdAccumulator Digest Point) :=
  if acc.validSharesBits.count = acc.reqSigners then pure acc
  else if acc.accepts verifyShare id (acc.pendingShares id) then
    acc.addValid id (acc.pendingShares id)
  else pure acc

/-- `verifyPendingShares`. Nothing reads the pending shares afterwards. -/
def verifyPendingShares : Except Failure (ThresholdAccumulator Digest Point) := do
  Assert (acc.validSharesBits.count = 0)
  let acc ← acc.pendingSharesBits.ids.foldlM (verifyPendingShare verifyShare) acc
  Assert (acc.validSharesBits.count ≤ acc.reqSigners)
  pure acc

/-- `setExpectedDigest` of an accumulator without one: the digest cannot be changed later. -/
def setExpectedDigest (digest : Digest) : Except Failure (ThresholdAccumulator Digest Point) :=
  let acc := { acc with expectedDigest := some digest }
  if acc.shareVerificationEnabled then acc.verifyPendingShares verifyShare else pure acc

/-- Add shares one after the other. -/
def addShares (shares : List (ℕ × Point)) : Except Failure (ThresholdAccumulator Digest Point) :=
  shares.foldlM (fun acc p => do
    let r ← acc.addNumById verifyShare p.1 p.2
    pure r.1) acc

/-- A use of an accumulator: shares, the expected digest, and more shares. -/
def collect (before : List (ℕ × Point)) (digest : Digest) (after : List (ℕ × Point)) :
    Except Failure (ThresholdAccumulator Digest Point) := do
  let acc ← acc.addShares verifyShare before
  let acc ← acc.setExpectedDigest verifyShare digest
  acc.addShares verifyShare after

/-! ## Shares of different signers -/

/-- `bits` and `cells` hold exactly the given shares. -/
structure Holds (bits : VectorOfShares) (cells : ℕ → Point) (shares : List (ℕ × Point)) : Prop where
  mem : ∀ i, i ∈ bits.data ↔ ∃ p ∈ shares, p.1 = i + 1
  cell : ∀ p ∈ shares, cells p.1 = p.2

theorem holds_empty (cells : ℕ → Point) : Holds .empty cells [] where
  mem := by simp [empty]
  cell := by simp

variable {bits : VectorOfShares} {cells : ℕ → Point} {shares : List (ℕ × Point)}

section

variable (h : Holds bits cells shares)
include h

theorem Holds.contains_eq_false {signer : ℕ} (hpos : 1 ≤ signer) (hnew : ∀ p ∈ shares, p.1 ≠ signer) :
    bits.contains signer = false := by
  apply decide_eq_false
  rw [h.mem]
  rintro ⟨p, hp, heq⟩
  exact hnew p hp (by omega)

theorem Holds.of_mem_ids {id : ℕ} (hid : id ∈ bits.ids) :
    ∃ p ∈ shares, p.1 = id ∧ cells id = p.2 := by
  obtain ⟨hpos, hdata⟩ := mem_ids.1 hid
  obtain ⟨p, hp, heq⟩ := (h.mem _).1 hdata
  have hpid : p.1 = id := by omega
  exact ⟨p, hp, hpid, hpid ▸ h.cell p hp⟩

theorem Holds.setBit {signer : ℕ} (share : Point) (hid : 1 ≤ signer ∧ signer ≤ maxNumOfShares)
    (hnew : ∀ p ∈ shares, p.1 ≠ signer) :
    Holds (bits.setBit signer hid) (Function.update cells signer share)
      (shares ++ [(signer, share)]) where
  mem := by
    intro i
    rw [mem_setBit, h.mem]
    constructor
    · rintro (rfl | ⟨p, hp, heq⟩)
      · exact ⟨(signer, share), by simp, by omega⟩
      · exact ⟨p, by simp [hp], heq⟩
    · rintro ⟨p, hp, heq⟩
      rcases List.mem_append.1 hp with hp | hp
      · exact Or.inr ⟨p, hp, heq⟩
      · rw [List.mem_singleton.1 hp] at heq
        exact Or.inl (by omega)
  cell := by
    intro p hp
    rcases List.mem_append.1 hp with hp | hp
    · rw [Function.update_of_ne (hnew p hp), h.cell p hp]
    · rw [List.mem_singleton.1 hp, Function.update_self]

/-- The counter is the number of shares of different signers. -/
theorem Holds.count_eq (hpos : ∀ p ∈ shares, 1 ≤ p.1) (hnodup : (shares.map (·.1)).Nodup) :
    bits.count = shares.length := by
  have hdata : bits.data = (shares.map fun p => p.1 - 1).toFinset := by
    ext i
    rw [h.mem, List.mem_toFinset, List.mem_map]
    constructor
    · rintro ⟨p, hp, heq⟩
      exact ⟨p, hp, by omega⟩
    · rintro ⟨p, hp, heq⟩
      have := hpos p hp
      exact ⟨p, hp, by omega⟩
  have hpred : (shares.map fun p => p.1 - 1).Nodup := by
    rw [show (shares.map fun p => p.1 - 1) = (shares.map (·.1)).map (· - 1) by simp]
    apply List.Nodup.map_on _ hnodup
    intro a ha b hb hab
    obtain ⟨p, hp, rfl⟩ := List.mem_map.1 ha
    obtain ⟨r, hr, rfl⟩ := List.mem_map.1 hb
    have := hpos p hp
    have := hpos r hr
    omega
  rw [count, bits.size_eq, hdata, List.toFinset_card_of_nodup hpred, List.length_map]

end

/-- What an accumulator knows: the digest, and the pending and the valid shares. -/
structure Keeps (reqSigners totalSigners : ℕ) (enabled : Bool) (digest : Option Digest)
    (pending valid : List (ℕ × Point)) (acc : ThresholdAccumulator Digest Point) : Prop where
  reqSigners_eq : acc.reqSigners = reqSigners
  totalSigners_eq : acc.totalSigners = totalSigners
  enabled_eq : acc.shareVerificationEnabled = enabled
  digest_eq : acc.expectedDigest = digest
  pending_holds : Holds acc.pendingSharesBits acc.pendingShares pending
  valid_holds : Holds acc.validSharesBits acc.validShares valid

theorem keeps_create (reqSigners totalSigners : ℕ) (enabled : Bool) (noShare : Point) :
    Keeps reqSigners totalSigners enabled none [] []
      (create reqSigners totalSigners enabled noShare : ThresholdAccumulator Digest Point) where
  reqSigners_eq := rfl
  totalSigners_eq := rfl
  enabled_eq := rfl
  digest_eq := rfl
  pending_holds := holds_empty _
  valid_holds := holds_empty _

/-- The shares of a list are of different signers, all of them in range. -/
structure Distinct (totalSigners : ℕ) (shares : List (ℕ × Point)) : Prop where
  range : ∀ p ∈ shares, 1 ≤ p.1 ∧ p.1 ≤ totalSigners
  nodup : (shares.map (·.1)).Nodup

variable {reqSigners totalSigners : ℕ} {enabled : Bool} {digest : Option Digest}
  {pending valid : List (ℕ × Point)} {acc : ThresholdAccumulator Digest Point} {signer : ℕ}
  {share : Point} {d : Digest}

theorem Distinct.init {shares : List (ℕ × Point)} {p : ℕ × Point}
    (h : Distinct totalSigners (shares ++ [p])) :
    Distinct totalSigners shares ∧ (1 ≤ p.1 ∧ p.1 ≤ totalSigners) ∧ ∀ r ∈ shares, r.1 ≠ p.1 := by
  have hnodup := h.nodup
  rw [List.map_append, List.nodup_append] at hnodup
  refine ⟨⟨fun r hr => h.range r (by simp [hr]), hnodup.1⟩, h.range p (by simp), ?_⟩
  intro r hr
  exact hnodup.2.2 r.1 (List.mem_map_of_mem hr) p.1 (by simp)

theorem Holds.count_of_distinct (h : Holds bits cells shares)
    (hdist : Distinct totalSigners shares) : bits.count = shares.length :=
  h.count_eq (fun p hp => (hdist.range p hp).1) hdist.nodup

section

variable (h : Keeps reqSigners totalSigners enabled digest pending valid acc)
include h

/-- Keeping one more share. The only thing that can fail is the bound on the ids. -/
theorem Keeps.addValid (hpos : 1 ≤ signer) (hnew : ∀ p ∈ valid, p.1 ≠ signer) :
    Checked.Meets (fun _ => maxNumOfShares < signer)
      (Keeps reqSigners totalSigners enabled digest pending (valid ++ [(signer, share)]))
      (acc.addValid signer share) := by
  by_cases hmax : signer ≤ maxNumOfShares
  · apply meets_ok_bind (add_eq ⟨hpos, hmax⟩)
    exact .ok { h with valid_holds := h.valid_holds.setBit share ⟨hpos, hmax⟩ hnew }
  · rw [ThresholdAccumulator.addValid, add, dif_neg (by omega)]
    exact .error (Nat.lt_of_not_le hmax)

theorem Keeps.addNumById_valid (hdist : Distinct totalSigners (valid ++ [(signer, share)]))
    (hcount : valid.length < reqSigners)
    (haccept : enabled = true → ∃ d, digest = some d ∧ verifyShare d signer share = true) :
    Checked.Meets (fun _ => maxNumOfShares < signer)
      (fun r => Keeps reqSigners totalSigners enabled digest pending (valid ++ [(signer, share)]) r.1 ∧
        r.2 = valid.length + 1)
      (acc.addNumById verifyShare signer share) := by
  obtain ⟨hvalid, hrange, hnew⟩ := hdist.init
  have hcnt := h.valid_holds.count_of_distinct hvalid
  have hready : ¬ (acc.shareVerificationEnabled = true ∧ acc.expectedDigest.isNone = true) := by
    rintro ⟨hen, hnone⟩
    obtain ⟨d, hd, -⟩ := haccept (h.enabled_eq ▸ hen)
    rw [h.digest_eq, hd] at hnone
    simp at hnone
  have hacc : acc.accepts verifyShare signer share = true := by
    unfold accepts
    rw [h.enabled_eq, h.digest_eq]
    cases hen : enabled with
    | false => rfl
    | true =>
      obtain ⟨d, hd, hv⟩ := haccept hen
      simp [hd, hv]
  unfold addNumById
  apply meets_ok_bind (require_of (h.totalSigners_eq ▸ hrange))
  apply meets_ok_bind (require_of (by rw [h.reqSigners_eq]; omega))
  rw [if_neg hready, if_neg (by rw [h.reqSigners_eq]; omega),
    if_pos (h.valid_holds.contains_eq_false hrange.1 hnew), if_pos hacc]
  apply (h.addValid hrange.1 hnew).bind
  intro acc' hacc'
  refine .ok ⟨hacc', ?_⟩
  rw [hacc'.valid_holds.count_of_distinct hdist]
  simp

end

/-- The shares that count after one more: it has to be accepted, and its signer has to be new. -/
def withNew (accept : Bool) (valid : List (ℕ × Point)) (p : ℕ × Point) : List (ℕ × Point) :=
  if accept = true ∧ ∀ r ∈ valid, r.1 ≠ p.1 then valid ++ [p] else valid

theorem Distinct.withNew {p : ℕ × Point} (h : Distinct totalSigners valid)
    (hrange : 1 ≤ p.1 ∧ p.1 ≤ totalSigners) (accept : Bool) :
    Distinct totalSigners (withNew accept valid p) := by
  unfold ThresholdAccumulator.withNew
  split
  · next hnew =>
    constructor
    · intro r hr
      rcases List.mem_append.1 hr with hr | hr
      · exact h.range r hr
      · rw [List.mem_singleton.1 hr]
        exact hrange
    · rw [List.map_append, List.nodup_append]
      refine ⟨h.nodup, by simp, ?_⟩
      intro a ha b hb
      obtain ⟨r, hr, rfl⟩ := List.mem_map.1 ha
      rw [List.mem_singleton.1 hb]
      exact hnew.2 r hr
  · exact h

/-- The signers whose shares count after one more. -/
theorem exists_mem_withNew (accept : Bool) (valid : List (ℕ × Point)) (p : ℕ × Point) (id : ℕ) :
    (∃ r ∈ withNew accept valid p, r.1 = id) ↔
      (∃ r ∈ valid, r.1 = id) ∨ (accept = true ∧ p.1 = id) := by
  unfold withNew
  split
  · next hnew => simp [hnew.1, or_and_right, exists_or]
  · next hold =>
    constructor
    · exact Or.inl
    · rintro (hold' | ⟨haccept, rfl⟩)
      · exact hold'
      · by_contra hnone
        exact hold ⟨haccept, fun r hr heq => hnone ⟨r, hr, heq⟩⟩

/-- A share for an accumulator that does not wait for the digest. The counter that is returned tells
    whether the share was kept. -/
theorem Keeps.addNumById_known (h : Keeps reqSigners totalSigners enabled digest pending valid acc)
    (hknown : enabled = true → digest.isSome = true) (hdist : Distinct totalSigners valid)
    (hrange : 1 ≤ signer ∧ signer ≤ totalSigners) (hmax : signer ≤ maxNumOfShares)
    (hcount : valid.length < reqSigners) {accept : Bool}
    (haccept : (!enabled || digest.any fun d => verifyShare d signer share) = accept) :
    Checked.Meets (fun _ => False)
      (fun r => Keeps reqSigners totalSigners enabled digest pending
          (withNew accept valid (signer, share)) r.1 ∧
        r.2 = (withNew accept valid (signer, share)).length)
      (acc.addNumById verifyShare signer share) := by
  have hdist' := hdist.withNew (p := (signer, share)) hrange accept
  unfold withNew at hdist' ⊢
  split
  · next hnew =>
    rw [if_pos hnew] at hdist'
    have haccepted : enabled = true → ∃ d, digest = some d ∧ verifyShare d signer share = true := by
      intro hen
      obtain ⟨d, rfl⟩ := Option.isSome_iff_exists.1 (hknown hen)
      exact ⟨d, rfl, by simpa [hen, ← haccept] using hnew.1⟩
    have hadd := h.addNumById_valid verifyShare hdist' hcount haccepted
    refine (hadd.weaken fun e he => absurd hmax (not_le.2 he)).mono ?_
    rintro r ⟨hkeeps, hr⟩
    exact ⟨hkeeps, by simp [hr]⟩
  · next hold =>
    have hcnt := h.valid_holds.count_of_distinct hdist
    have hsame : acc.addNumById verifyShare signer share = .ok (acc, valid.length) := by
      unfold ThresholdAccumulator.addNumById
      rw [Assert, require_of (h.totalSigners_eq ▸ hrange), Assert,
        require_of (by rw [h.reqSigners_eq]; omega),
        if_neg (by
          rintro ⟨hen, hnone⟩
          rw [h.enabled_eq] at hen
          rw [h.digest_eq] at hnone
          simp [Option.isSome_iff_ne_none.1 (hknown hen)] at hnone),
        if_neg (by rw [h.reqSigners_eq]; omega), hcnt]
      by_cases hnew : ∀ r ∈ valid, r.1 ≠ signer
      · have hrefused : acc.accepts verifyShare signer share = false := by
          rw [accepts, h.enabled_eq, h.digest_eq, haccept]
          exact Bool.eq_false_iff.2 fun haccepted => hold ⟨haccepted, hnew⟩
        simp [hrefused, pure, Except.pure, Bind.bind, Except.bind]
      · have hcontains : acc.validSharesBits.contains signer = true := by
          push Not at hnew
          obtain ⟨r, hr, hsigner⟩ := hnew
          exact decide_eq_true ((h.valid_holds.mem _).2 ⟨r, hr, by omega⟩)
        simp [hcontains, pure, Except.pure, Bind.bind, Except.bind]
    rw [hsame]
    exact .ok ⟨h, rfl⟩

/-- Shares are added to an accumulator that does not verify them: of several shares with one id the
    first is kept. -/
theorem Keeps.addShares_unverified (h : Keeps reqSigners totalSigners false digest pending [] acc)
    (hmax : totalSigners ≤ maxNumOfShares)
    (hrange : ∀ p ∈ shares, 1 ≤ p.1 ∧ p.1 ≤ totalSigners) (hcount : shares.length ≤ reqSigners) :
    Checked.Meets (fun _ => False)
      (fun acc => ∃ valid, Keeps reqSigners totalSigners false digest pending valid acc ∧
        Distinct totalSigners valid ∧ valid.length ≤ shares.length ∧
        (Distinct totalSigners shares → valid = shares))
      (acc.addShares verifyShare shares) := by
  apply meets_foldlM (fun done acc => ∃ valid,
    Keeps reqSigners totalSigners false digest pending valid acc ∧
      Distinct totalSigners valid ∧ valid.length ≤ done.length ∧
      (Distinct totalSigners done → valid = done))
  · exact ⟨[], h, ⟨by simp, by simp⟩, le_rfl, fun _ => rfl⟩
  · rintro done p rest acc' hsplit ⟨valid, hkeeps, hdist, hle, hall⟩
    have hp := hrange p (by simp [hsplit])
    have hlt : done.length < reqSigners := by
      rw [hsplit, List.length_append, List.length_cons] at hcount
      omega
    apply (hkeeps.addNumById_known verifyShare (by simp) hdist hp (le_trans hp.2 hmax)
      (lt_of_le_of_lt hle hlt) rfl).bind
    rintro r ⟨hr, -⟩
    refine .ok ⟨_, hr, hdist.withNew hp _, ?_, ?_⟩
    · unfold withNew
      split <;> simp <;> omega
    · intro hdone
      obtain ⟨hinit, -, hnew⟩ := hdone.init
      obtain rfl := hall hinit
      exact if_pos ⟨rfl, hnew⟩

/-- A share that waits for the digest. -/
theorem Keeps.addNumById_pending (h : Keeps reqSigners totalSigners true none pending [] acc)
    (hdist : Distinct totalSigners (pending ++ [(signer, share)])) :
    Checked.Meets (fun _ => maxNumOfShares < signer)
      (fun r => Keeps reqSigners totalSigners true none (pending ++ [(signer, share)]) [] r.1)
      (acc.addNumById verifyShare signer share) := by
  obtain ⟨-, hrange, hnew⟩ := hdist.init
  have hempty : Distinct totalSigners ([] : List (ℕ × Point)) := ⟨by simp, by simp⟩
  have hcnt := h.valid_holds.count_of_distinct hempty
  unfold addNumById
  apply meets_ok_bind (require_of (h.totalSigners_eq ▸ hrange))
  apply meets_ok_bind (require_of (by rw [hcnt]; simp))
  rw [if_pos (by simp [h.enabled_eq, h.digest_eq]),
    if_pos (h.pending_holds.contains_eq_false hrange.1 hnew)]
  by_cases hmax : signer ≤ maxNumOfShares
  · apply meets_ok_bind (add_eq ⟨hrange.1, hmax⟩)
    exact .ok { h with pending_holds := h.pending_holds.setBit share ⟨hrange.1, hmax⟩ hnew }
  · rw [add, dif_neg (by omega)]
    exact .error (Nat.lt_of_not_le hmax)

theorem Keeps.verifyPendingShare (h : Keeps reqSigners totalSigners true (some d) pending valid acc)
    (id : ℕ) (hdist : Distinct totalSigners (valid ++ [(id, acc.pendingShares id)]))
    (hmax : id ≤ maxNumOfShares) (hcount : valid.length < reqSigners)
    (hverify : verifyShare d id (acc.pendingShares id) = true) :
    Checked.Meets (fun _ => False)
      (fun acc' => Keeps reqSigners totalSigners true (some d) pending
        (valid ++ [(id, acc.pendingShares id)]) acc' ∧ acc'.pendingShares = acc.pendingShares)
      (acc.verifyPendingShare verifyShare id) := by
  obtain ⟨hvalid, hrange, hnew⟩ := hdist.init
  have hcnt := h.valid_holds.count_of_distinct hvalid
  unfold ThresholdAccumulator.verifyPendingShare
  rw [if_neg (by rw [h.reqSigners_eq]; omega),
    if_pos (by simp [accepts, h.digest_eq, hverify])]
  apply meets_ok_bind (add_eq ⟨hrange.1, hmax⟩)
  exact .ok ⟨{ h with
    valid_holds := h.valid_holds.setBit (acc.pendingShares id) ⟨hrange.1, hmax⟩ hnew }, rfl⟩

/-- The shares that a loop over the ids of `Holds bits cells shares` sees are those shares. -/
theorem Holds.of_ids {bits' : VectorOfShares} {cells' : ℕ → Point}
    (h : Holds bits cells shares) (h' : Holds bits' cells' (bits.ids.map fun id => (id, cells id)))
    (hpos : ∀ p ∈ shares, 1 ≤ p.1) : Holds bits' cells' shares where
  mem := by
    intro i
    rw [h'.mem, ← h.mem]
    constructor
    · rintro ⟨p, hp, heq⟩
      obtain ⟨id, hid, rfl⟩ := List.mem_map.1 hp
      have hmem := (mem_ids.1 hid).2
      rwa [show id = i + 1 from heq] at hmem
    · intro hi
      exact ⟨(i + 1, cells (i + 1)), List.mem_map.2
        ⟨i + 1, mem_ids.2 ⟨Nat.le_add_left 1 i, hi⟩, rfl⟩, rfl⟩
  cell := by
    intro p hp
    have hid : p.1 ∈ bits.ids := by
      rw [mem_ids, h.mem]
      have := hpos p hp
      exact ⟨this, p, hp, by omega⟩
    rw [h'.cell _ (List.mem_map_of_mem hid), h.cell p hp]

/-- Once the digest is known, the pending shares count if they verify. -/
theorem Keeps.verifyPendingShares (h : Keeps reqSigners totalSigners true (some d) pending [] acc)
    (hdist : Distinct totalSigners pending) (hcount : pending.length ≤ reqSigners)
    (hverify : ∀ p ∈ pending, verifyShare d p.1 p.2 = true) :
    Checked.Meets (fun _ => False) (Keeps reqSigners totalSigners true (some d) pending pending)
      (acc.verifyPendingShares verifyShare) := by
  have hempty : Distinct totalSigners ([] : List (ℕ × Point)) := ⟨by simp, by simp⟩
  have hpos : ∀ p ∈ pending, 1 ≤ p.1 := fun p hp => (hdist.range p hp).1
  -- every pending id stands for a pending share
  have hid : ∀ id ∈ acc.pendingSharesBits.ids, (id, acc.pendingShares id) ∈ pending := by
    intro id hid
    obtain ⟨p, hp, hpid, hcell⟩ := h.pending_holds.of_mem_ids hid
    rwa [hcell, ← hpid]
  have hlen : acc.pendingSharesBits.ids.length = pending.length := by
    rw [length_ids, h.pending_holds.count_of_distinct hdist]
  unfold ThresholdAccumulator.verifyPendingShares
  apply meets_ok_bind (require_of (h.valid_holds.count_of_distinct hempty))
  have hloop : Checked.Meets (fun _ => False)
      (fun acc' : ThresholdAccumulator Digest Point =>
        Keeps reqSigners totalSigners true (some d) pending
          (acc.pendingSharesBits.ids.map fun id => (id, acc.pendingShares id)) acc' ∧
          acc'.pendingShares = acc.pendingShares)
      (acc.pendingSharesBits.ids.foldlM (ThresholdAccumulator.verifyPendingShare verifyShare) acc) := by
    apply meets_foldlM (fun done (acc' : ThresholdAccumulator Digest Point) =>
      Keeps reqSigners totalSigners true (some d) pending
        (done.map fun id => (id, acc.pendingShares id)) acc' ∧
        acc'.pendingShares = acc.pendingShares)
    · exact ⟨h, rfl⟩
    · intro done id rest acc' hsplit hacc'
      obtain ⟨hkeeps, hshares⟩ := hacc'
      have hids : (done ++ [id]).Sublist acc.pendingSharesBits.ids := by
        rw [hsplit, show done ++ id :: rest = (done ++ [id]) ++ rest by simp]
        simp
      have hnodup : (done ++ [id]).Nodup :=
        hids.nodup (acc.pendingSharesBits.sortedLT_ids.imp ne_of_lt)
      have hmem : ∀ id' ∈ done ++ [id], (id', acc.pendingShares id') ∈ pending := fun id' hid' =>
        hid id' (hids.subset hid')
      have hround := hkeeps.verifyPendingShare verifyShare id
      rw [hshares, show done.map (fun id => (id, acc.pendingShares id)) ++ [(id, acc.pendingShares id)] =
        (done ++ [id]).map fun id => (id, acc.pendingShares id) by simp] at hround
      apply hround
      · constructor
        · intro p hp
          obtain ⟨id', hid', rfl⟩ := List.mem_map.1 hp
          exact hdist.range _ (hmem id' hid')
        · simpa [Function.comp_def] using hnodup
      · exact le_of_mem_ids (hids.subset (by simp))
      · have hlt := hids.length_le
        simp only [List.length_map, List.length_append, List.length_singleton] at hlt ⊢
        omega
      · exact hverify _ (hmem id (by simp))
  apply hloop.bind
  rintro acc' ⟨hkeeps, -⟩
  have hall : Keeps reqSigners totalSigners true (some d) pending pending acc' :=
    { hkeeps with valid_holds := h.pending_holds.of_ids hkeeps.valid_holds hpos }
  have hle : acc'.validSharesBits.count ≤ acc'.reqSigners := by
    rw [hall.valid_holds.count_of_distinct hdist, hall.reqSigners_eq]
    exact hcount
  apply meets_ok_bind (require_of hle)
  exact .ok hall

/-! ## Collecting valid shares -/

theorem Distinct.take {shares done rest : List (ℕ × Point)} {p : ℕ × Point}
    (h : Distinct totalSigners shares) (hsplit : shares = done ++ p :: rest) :
    Distinct totalSigners (done ++ [p]) := by
  have hsub : (done ++ [p]).Sublist shares := by
    rw [hsplit, show done ++ p :: rest = (done ++ [p]) ++ rest by simp]
    simp
  exact ⟨fun r hr => h.range r (hsub.subset hr), (hsub.map _).nodup h.nodup⟩

/-- Shares that count are kept, all of them. -/
theorem Keeps.addShares_valid
    (h : Keeps reqSigners totalSigners enabled digest pending valid acc)
    (hdist : Distinct totalSigners (valid ++ shares))
    (hcount : (valid ++ shares).length ≤ reqSigners)
    (haccept : enabled = true → ∃ d, digest = some d ∧ ∀ p ∈ shares, verifyShare d p.1 p.2 = true) :
    Checked.Meets (fun _ => ∃ p ∈ shares, maxNumOfShares < p.1)
      (Keeps reqSigners totalSigners enabled digest pending (valid ++ shares))
      (acc.addShares verifyShare shares) := by
  apply meets_foldlM (fun done => Keeps reqSigners totalSigners enabled digest pending
    (valid ++ done))
  · rwa [List.append_nil]
  · intro done p rest acc' hsplit hkeeps
    have hmem : p ∈ shares := by simp [hsplit]
    have hnext : Distinct totalSigners ((valid ++ done) ++ [p]) :=
      hdist.take (show valid ++ shares = (valid ++ done) ++ p :: rest by simp [hsplit])
    have hlt : (valid ++ done).length < reqSigners := by
      simp only [hsplit, List.length_append, List.length_cons] at hcount ⊢
      omega
    have hone : enabled = true → ∃ d, digest = some d ∧ verifyShare d p.1 p.2 = true := by
      intro hen
      obtain ⟨d, hd, hall⟩ := haccept hen
      exact ⟨d, hd, hall p hmem⟩
    have hstep := hkeeps.addNumById_valid verifyShare hnext hlt hone
    rw [← List.append_assoc]
    apply (hstep.weaken fun e he => ⟨p, hmem, he⟩).bind
    rintro r ⟨hr, -⟩
    exact .ok hr

/-- Shares that come before the digest wait for it. -/
theorem Keeps.addShares_pending
    (h : Keeps reqSigners totalSigners true none [] [] acc)
    (hdist : Distinct totalSigners shares) :
    Checked.Meets (fun _ => ∃ p ∈ shares, maxNumOfShares < p.1)
      (Keeps reqSigners totalSigners true none shares []) (acc.addShares verifyShare shares) := by
  apply meets_foldlM (fun done => Keeps reqSigners totalSigners true none done [])
  · exact h
  · intro done p rest acc' hsplit hkeeps
    have hmem : p ∈ shares := by simp [hsplit]
    have hstep := hkeeps.addNumById_pending verifyShare (hdist.take hsplit)
    apply (hstep.weaken fun e he => ⟨p, hmem, he⟩).bind
    intro r hr
    exact .ok hr

/-- Shares that came before the digest count once it is known. -/
theorem addShares_setExpectedDigest_meets (enabled : Bool) (noShare : Point)
    (hdist : Distinct totalSigners shares) (hcount : shares.length ≤ reqSigners)
    (hverify : ∀ p ∈ shares, verifyShare d p.1 p.2 = true) :
    Checked.Meets (fun _ => ∃ p ∈ shares, maxNumOfShares < p.1)
      (fun acc => ∃ pending, Keeps reqSigners totalSigners enabled (some d) pending shares acc)
      (do
        let acc ← (create reqSigners totalSigners enabled noShare).addShares verifyShare shares
        acc.setExpectedDigest verifyShare d) := by
  cases enabled with
  | false =>
    have hadd := (keeps_create reqSigners totalSigners false noShare).addShares_valid verifyShare
      hdist hcount (by simp)
    apply hadd.bind
    intro acc hacc
    rw [setExpectedDigest, if_neg (by simp [hacc.enabled_eq])]
    exact .ok ⟨[], { hacc with digest_eq := rfl }⟩
  | true =>
    have hadd := (keeps_create reqSigners totalSigners true noShare).addShares_pending verifyShare
      hdist
    apply hadd.bind
    intro acc hacc
    rw [setExpectedDigest, if_pos hacc.enabled_eq]
    have hset : Keeps reqSigners totalSigners true (some d) shares []
        { acc with expectedDigest := some d } := { hacc with digest_eq := rfl }
    have hpending := hset.verifyPendingShares verifyShare hdist hcount hverify
    exact (hpending.weaken fun e he => he.elim).mono fun acc' hacc' => ⟨shares, hacc'⟩

theorem setExpectedDigest_create_meets (enabled : Bool) (d : Digest) (noShare : Point) :
    Checked.Meets (fun _ => False) (Keeps reqSigners totalSigners enabled (some d) [] [])
      ((create reqSigners totalSigners enabled noShare).setExpectedDigest verifyShare d) := by
  have hnew : Keeps reqSigners totalSigners enabled none [] []
      (create reqSigners totalSigners enabled noShare : ThresholdAccumulator Digest Point) :=
    keeps_create ..
  have hset : Keeps reqSigners totalSigners enabled (some d) [] []
      { (create reqSigners totalSigners enabled noShare : ThresholdAccumulator Digest Point) with
        expectedDigest := some d } := { hnew with digest_eq := rfl }
  cases enabled with
  | false => exact .ok hset
  | true => exact hset.verifyPendingShares verifyShare ⟨by simp, by simp⟩ (by simp) (by simp)

/-- **Collecting.** Valid shares of different signers, not more than required, are all kept: whether
    shares are verified or not, and whenever the digest becomes known. -/
theorem collect_meets {before after : List (ℕ × Point)} (noShare : Point)
    (hdist : Distinct totalSigners (before ++ after))
    (hcount : (before ++ after).length ≤ reqSigners)
    (hverify : ∀ p ∈ before ++ after, verifyShare d p.1 p.2 = true) :
    Checked.Meets (fun _ => ∃ p ∈ before ++ after, maxNumOfShares < p.1)
      (fun acc => ∃ pending,
        Keeps reqSigners totalSigners enabled (some d) pending (before ++ after) acc)
      ((create reqSigners totalSigners enabled noShare).collect verifyShare before d after) := by
  have hbefore : Distinct totalSigners before :=
    ⟨fun p hp => hdist.range p (by simp [hp]),
      ((List.sublist_append_left before after).map _).nodup hdist.nodup⟩
  have hle : before.length ≤ reqSigners := by
    rw [List.length_append] at hcount
    omega
  have hfirst := addShares_setExpectedDigest_meets verifyShare enabled noShare hbefore hle
    fun p hp => hverify p (List.mem_append_left _ hp)
  unfold collect
  rw [← bind_assoc]
  apply (hfirst.weaken fun e ⟨p, hp, hmax⟩ => ⟨p, List.mem_append_left _ hp, hmax⟩).bind
  rintro acc ⟨pending, hacc⟩
  have hsecond := hacc.addShares_valid verifyShare hdist hcount
    fun _ => ⟨d, rfl, fun p hp => hverify p (List.mem_append_right _ hp)⟩
  apply (hsecond.weaken fun e ⟨p, hp, hmax⟩ => ⟨p, List.mem_append_right _ hp, hmax⟩).mono
  intro acc' hacc'
  exact ⟨pending, hacc'⟩

end ThresholdAccumulator

end ConcordBft.Threshsign
