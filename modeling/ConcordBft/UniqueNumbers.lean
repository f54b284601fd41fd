import ConcordBft.BCStateTran.State
import ConcordBft.Failure
import ConcordBft.Lib.Machine

set_option autoImplicit false

/-! # Numbers that never repeat (`BCStateTran::uniqueMsgSeqNum`, `SimpleClient.cpp`)

The state transfer numbers its requests, and a client its own, by the millisecond of the system clock
and a counter of 22 bits within it, packed in one word. When the clock does not move on, the counter
does; the two generators differ in what they do when the counter is full. -/

namespace ConcordBft

open Checked

/-! ## Packed numbers -/

/-- `(milli << (64 - 42)) | count`, for a counter of 22 bits. -/
def packed (milli count : ℕ) : ℕ := milli * 2 ^ 22 % 2 ^ 64 + count

theorem packed_eq {milli : ℕ} (h : milli < 2 ^ 42) (count : ℕ) :
    packed milli count = milli * 2 ^ 22 + count := by
  rw [packed, Nat.mod_eq_of_lt (by omega)]

/-- The time and the counter move on: the time first, or the counter within one millisecond. -/
def MovesOn (milli count milli' count' : ℕ) : Prop :=
  milli < milli' ∨ milli = milli' ∧ count < count'

/-- Numbers given out so far, the last one first: they increase up to the packed time and counter. -/
structure Increasing (milli count : ℕ) (numbers : List ℕ) : Prop where
  count_le : count ≤ 0x3FFFFF
  milli_lt : milli < 2 ^ 42
  sorted : numbers.Pairwise (· > ·)
  le_last : ∀ x ∈ numbers, x ≤ packed milli count

theorem increasing_nil : Increasing 0 0 [] :=
  ⟨by decide, by decide, List.Pairwise.nil, by simp⟩

section Packed

variable {milli count milli' count' : ℕ} {numbers : List ℕ}

theorem Increasing.lt (h : Increasing milli count numbers) (hmilli' : milli' < 2 ^ 42)
    (hmoves : MovesOn milli count milli' count') : ∀ x ∈ numbers, x < packed milli' count' := by
  intro x hx
  have hle := h.le_last x hx
  have hcount := h.count_le
  rw [packed_eq h.milli_lt] at hle
  rw [packed_eq hmilli']
  rcases hmoves with hlater | ⟨rfl, hmore⟩
  · omega
  · omega

/-- The packed time and counter may be given out whenever they have moved on. -/
theorem Increasing.cons (h : Increasing milli count numbers) (hmilli' : milli' < 2 ^ 42)
    (hcount' : count' ≤ 0x3FFFFF) (hmoves : MovesOn milli count milli' count') :
    Increasing milli' count' (packed milli' count' :: numbers) := by
  refine ⟨hcount', hmilli', List.pairwise_cons.2 ⟨h.lt hmilli' hmoves, h.sorted⟩, ?_⟩
  intro x hx
  rcases List.mem_cons.1 hx with rfl | hold
  · exact le_refl _
  · exact le_of_lt (h.lt hmilli' hmoves x hold)

end Packed

/-! ## Numbers of the state transfer -/

namespace BCStateTran

variable {env : Env} {st : BCStateTran}

/-- The clock has moved on, or the counter is not full. -/
def Roomy (st : BCStateTran) (env : Env) : Prop :=
  st.lastMilliOfUniqueFetchID < env.systemTimeMilli ∨ st.lastCountOfUniqueFetchID < 0x3FFFFF

theorem uniqueMsgSeqNum_later (h : st.lastMilliOfUniqueFetchID < env.systemTimeMilli) :
    st.uniqueMsgSeqNum env = .ok ({ st with
      lastMilliOfUniqueFetchID := env.systemTimeMilli
      lastCountOfUniqueFetchID := 0 }, packed env.systemTimeMilli 0) := by
  unfold uniqueMsgSeqNum
  simp only [if_pos h]
  rfl

theorem uniqueMsgSeqNum_counts (h : env.systemTimeMilli ≤ st.lastMilliOfUniqueFetchID)
    (hcount : st.lastCountOfUniqueFetchID < 0x3FFFFF) :
    st.uniqueMsgSeqNum env = .ok (
      { st with lastCountOfUniqueFetchID := st.lastCountOfUniqueFetchID + 1 },
      packed st.lastMilliOfUniqueFetchID (st.lastCountOfUniqueFetchID + 1)) := by
  unfold uniqueMsgSeqNum
  simp only [if_neg (not_lt.2 h), if_neg (ne_of_lt hcount), Assert,
    require_of (Nat.succ_le_of_lt hcount)]
  rfl

/-- A full counter moves the time on and is counted up all the same. -/
theorem uniqueMsgSeqNum_full (h : env.systemTimeMilli ≤ st.lastMilliOfUniqueFetchID)
    (hcount : st.lastCountOfUniqueFetchID = 0x3FFFFF) :
    st.uniqueMsgSeqNum env = .error .assertion := by
  unfold uniqueMsgSeqNum
  simp only [if_neg (not_lt.2 h)]
  rw [hcount]
  rfl

/-- With room, the time and the counter move on and are packed. -/
theorem uniqueMsgSeqNum_roomy (h : st.Roomy env) :
    ∃ st', st.uniqueMsgSeqNum env =
        .ok (st', packed st'.lastMilliOfUniqueFetchID st'.lastCountOfUniqueFetchID) ∧
      MovesOn st.lastMilliOfUniqueFetchID st.lastCountOfUniqueFetchID
        st'.lastMilliOfUniqueFetchID st'.lastCountOfUniqueFetchID ∧
      st'.lastCountOfUniqueFetchID ≤ 0x3FFFFF ∧
      (st'.lastMilliOfUniqueFetchID = st.lastMilliOfUniqueFetchID ∨
        st'.lastMilliOfUniqueFetchID = env.systemTimeMilli) := by
  by_cases hlater : st.lastMilliOfUniqueFetchID < env.systemTimeMilli
  · exact ⟨_, uniqueMsgSeqNum_later hlater, .inl hlater, Nat.zero_le _, .inr rfl⟩
  · have hcount := h.resolve_left hlater
    exact ⟨_, uniqueMsgSeqNum_counts (Nat.not_lt.1 hlater) hcount, .inr ⟨rfl, Nat.lt_succ_self _⟩,
      hcount, .inl rfl⟩

/-- The calls of `uniqueMsgSeqNum` so far. -/
structure MsgNumbers where
  st : BCStateTran := {}
  numbers : List ℕ := []

namespace MsgNumbers

variable {s : MsgNumbers}

/-- One more call, unless it stops at the assertion. -/
def next (s : MsgNumbers) (env : Env) : Option MsgNumbers :=
  match s.st.uniqueMsgSeqNum env with
  | .ok (st, r) => some ⟨st, r :: s.numbers⟩
  | .error _ => none

theorem next_of_ok {st : BCStateTran} {r : ℕ} (h : s.st.uniqueMsgSeqNum env = .ok (st, r)) :
    s.next env = some ⟨st, r :: s.numbers⟩ := by
  rw [next, h]

theorem next_eq_some {s' : MsgNumbers} (h : s.next env = some s') :
    ∃ r, s.st.uniqueMsgSeqNum env = .ok (s'.st, r) ∧ s'.numbers = r :: s.numbers := by
  unfold next at h
  split at h
  · rename_i st r hcall
    obtain rfl := Option.some.inj h
    exact ⟨r, hcall, rfl⟩
  · cases h

/-- The system clock is below `2 ^ 42` milliseconds. -/
def InTime (_ : MsgNumbers) (env : Env) : Prop := env.systemTimeMilli < 2 ^ 42

/-- A call with room while the clock is in time. -/
def Unhurried (s : MsgNumbers) (env : Env) : Prop := s.InTime env ∧ s.st.Roomy env

theorem increasing_of_reaches (h : Machine.Reaches next Unhurried {} s) :
    Increasing s.st.lastMilliOfUniqueFetchID s.st.lastCountOfUniqueFetchID s.numbers := by
  apply h.invariant
  · exact increasing_nil
  · intro s env s' hs hok hnext
    obtain ⟨r, hcall, hnumbers⟩ := next_eq_some hnext
    obtain ⟨st', hst', hmoves, hcount, hmilli⟩ := uniqueMsgSeqNum_roomy hok.2
    obtain ⟨rfl, rfl⟩ := Prod.mk.inj (Except.ok.inj (hcall.symm.trans hst'))
    rw [hnumbers]
    apply hs.cons _ hcount hmoves
    rcases hmilli with hsame | hnow
    · exact hsame ▸ hs.milli_lt
    · exact hnow ▸ hok.1

/-- **The numbers of the state transfer increase, exactly as long as there is room.** In every run of
    calls that have room, the numbers increase strictly; the next call returns a larger one if and
    only if it has room. -/
theorem numbers_increase (h : Machine.Reaches next Unhurried {} s) :
    s.numbers.Pairwise (· > ·) ∧ ∀ env, s.InTime env →
      ((∃ st r, s.st.uniqueMsgSeqNum env = .ok (st, r) ∧ ∀ x ∈ s.numbers, x < r) ↔
        s.st.Roomy env) := by
  have hs := increasing_of_reaches h
  refine ⟨hs.sorted, ?_⟩
  intro env htime
  constructor
  · rintro ⟨st, r, hcall, -⟩
    by_contra hroom
    unfold Roomy at hroom
    have hcount := hs.count_le
    rw [uniqueMsgSeqNum_full (by omega) (by omega)] at hcall
    cases hcall
  · intro hroom
    obtain ⟨st, hcall, hmoves, -, hmilli⟩ := uniqueMsgSeqNum_roomy hroom
    refine ⟨st, _, hcall, hs.lt ?_ hmoves⟩
    rcases hmilli with hsame | hnow
    · exact hsame ▸ hs.milli_lt
    · exact hnow ▸ htime

/-- While the clock stands still, every call counts, up to a full counter. -/
theorem reaches_count (n : ℕ) (hn : n ≤ 0x3FFFFF) :
    ∃ s, Machine.Reaches next Unhurried {} s ∧ s.st.lastMilliOfUniqueFetchID = 1 ∧
      s.st.lastCountOfUniqueFetchID = n := by
  have hintime : ∀ s : MsgNumbers, s.InTime ⟨0, 1, 0⟩ := fun _ => show 1 < 2 ^ 42 by decide
  induction n with
  | zero =>
    have hlater : ({} : BCStateTran).lastMilliOfUniqueFetchID < 1 := zero_lt_one
    have hcall : ({} : BCStateTran).uniqueMsgSeqNum ⟨0, 1, 0⟩ = .ok _ := uniqueMsgSeqNum_later hlater
    have hnext := next_of_ok (s := {}) hcall
    exact ⟨_, (Machine.Reaches.refl _).snoc ⟨hintime _, .inl hlater⟩ hnext, rfl, rfl⟩
  | succ n ih =>
    obtain ⟨s, hs, hmilli, hcount⟩ := ih (Nat.le_of_succ_le hn)
    have hroom : s.st.lastCountOfUniqueFetchID < 0x3FFFFF := by rw [hcount]; exact hn
    have hcall : s.st.uniqueMsgSeqNum ⟨0, 1, 0⟩ = .ok _ :=
      uniqueMsgSeqNum_counts (le_of_eq hmilli.symm) hroom
    exact ⟨_, hs.snoc ⟨hintime s, .inr hroom⟩ (next_of_ok hcall), hmilli, congrArg (· + 1) hcount⟩

theorem numbers_increase_at_standing_clock :
    ∃ s, (Machine.Reaches next Unhurried {} s ∧ s.st.lastCountOfUniqueFetchID = 2) ∧
      s.numbers.Pairwise (· > ·) := by
  obtain ⟨s, hs, -, hcount⟩ := reaches_count 2 (by decide)
  exact ⟨s, ⟨hs, hcount⟩, (numbers_increase hs).1⟩

/-- The clock stands still for `2 ^ 22` calls, and the next one stops at the assertion. -/
theorem stops_at_standing_clock :
    ∃ s, Machine.Reaches next InTime {} s ∧
      s.st.uniqueMsgSeqNum ⟨0, 1, 0⟩ = .error .assertion := by
  obtain ⟨s, hs, hmilli, hcount⟩ := reaches_count 0x3FFFFF (le_refl _)
  exact ⟨s, hs.mono fun _ _ hok => hok.1, uniqueMsgSeqNum_full (le_of_eq hmilli.symm) hcount⟩

end MsgNumbers

end BCStateTran

/-! ## Numbers of a client's requests -/

/-- The time and the counter of the last number. -/
structure SeqNumberGeneratorForClientRequestsImp where
  lastMilliOfUniqueFetchID : ℕ := 0
  lastCountOfUniqueFetchID : ℕ := 0
deriving DecidableEq, Repr

namespace SeqNumberGeneratorForClientRequestsImp

/-- `milli` is the reading of the system clock. A full counter starts the next millisecond. -/
def generateUniqueSequenceNumberForRequest (g : SeqNumberGeneratorForClientRequestsImp)
    (milli : ℕ) : Except Failure (SeqNumberGeneratorForClientRequestsImp × ℕ) := do
  let g : SeqNumberGeneratorForClientRequestsImp :=
    if g.lastMilliOfUniqueFetchID < milli then ⟨milli, 0⟩
    else if g.lastCountOfUniqueFetchID = 0x3FFFFF then ⟨g.lastMilliOfUniqueFetchID + 1, 0⟩
    else ⟨g.lastMilliOfUniqueFetchID, g.lastCountOfUniqueFetchID + 1⟩
  Assert (g.lastCountOfUniqueFetchID ≤ 0x3FFFFF)
  pure (g, packed g.lastMilliOfUniqueFetchID g.lastCountOfUniqueFetchID)

/-- A call moves the time and the counter on, to the reading of the clock at least. -/
theorem generateUniqueSequenceNumberForRequest_spec {g : SeqNumberGeneratorForClientRequestsImp}
    (milli : ℕ) (hcount : g.lastCountOfUniqueFetchID ≤ 0x3FFFFF) :
    ∃ g', g.generateUniqueSequenceNumberForRequest milli =
        .ok (g', packed g'.lastMilliOfUniqueFetchID g'.lastCountOfUniqueFetchID) ∧
      MovesOn g.lastMilliOfUniqueFetchID g.lastCountOfUniqueFetchID
        g'.lastMilliOfUniqueFetchID g'.lastCountOfUniqueFetchID ∧
      g'.lastCountOfUniqueFetchID ≤ 0x3FFFFF ∧ milli ≤ g'.lastMilliOfUniqueFetchID := by
  unfold generateUniqueSequenceNumberForRequest
  by_cases hlater : g.lastMilliOfUniqueFetchID < milli
  · simp only [if_pos hlater]
    exact ⟨_, assert_bind_of (Nat.zero_le _), .inl hlater, Nat.zero_le _, Nat.le_refl _⟩
  · have hle := not_lt.1 hlater
    by_cases hfull : g.lastCountOfUniqueFetchID = 0x3FFFFF
    · simp only [if_neg hlater, if_pos hfull]
      exact ⟨_, assert_bind_of (Nat.zero_le _), .inl (Nat.lt_succ_self _), Nat.zero_le _,
        Nat.le_succ_of_le hle⟩
    · have hroom : g.lastCountOfUniqueFetchID + 1 ≤ 0x3FFFFF := lt_of_le_of_ne hcount hfull
      simp only [if_neg hlater, if_neg hfull]
      exact ⟨_, assert_bind_of hroom, .inr ⟨rfl, Nat.lt_succ_self _⟩, hroom, hle⟩

/-- The calls so far, each with the reading of the clock and its result. -/
structure Calls where
  g : SeqNumberGeneratorForClientRequestsImp := {}
  calls : List (ℕ × ℕ) := []
deriving DecidableEq, Repr

namespace Calls

variable {s : Calls}

/-- A call that fails no assertion. -/
def next (s : Calls) (milli : ℕ) : Option Calls :=
  match s.g.generateUniqueSequenceNumberForRequest milli with
  | .ok (g, r) => some ⟨g, (milli, r) :: s.calls⟩
  | .error _ => none

/-- The reading is below `2 ^ 42` milliseconds. -/
def InTime (_ : Calls) (milli : ℕ) : Prop := milli < 2 ^ 42

/-- What holds of the calls so far, as long as the stored time is below `2 ^ 42`. -/
structure Inv (s : Calls) : Prop where
  count_le : s.g.lastCountOfUniqueFetchID ≤ 0x3FFFFF
  increasing : s.g.lastMilliOfUniqueFetchID < 2 ^ 42 →
    Increasing s.g.lastMilliOfUniqueFetchID s.g.lastCountOfUniqueFetchID (s.calls.map Prod.snd) ∧
      ∀ c ∈ s.calls, packed c.1 0 ≤ c.2

theorem Inv.next {s' : Calls} {milli : ℕ} (h : s.Inv) (hnext : s.next milli = some s') : s'.Inv := by
  obtain ⟨g', hg', hmoves, hcount, hmilli⟩ :=
    generateUniqueSequenceNumberForRequest_spec milli h.count_le
  simp only [Calls.next, hg', Option.some.injEq] at hnext
  subst hnext
  refine ⟨hcount, ?_⟩
  intro htime
  -- the stored time never goes back
  have hbefore : s.g.lastMilliOfUniqueFetchID < 2 ^ 42 := by
    rcases hmoves with hlater | ⟨hsame, -⟩
    · lia
    · rw [hsame]
      exact htime
  obtain ⟨hincreasing, hclock⟩ := h.increasing hbefore
  refine ⟨hincreasing.cons htime hcount hmoves, ?_⟩
  intro c hc
  rcases List.mem_cons.1 hc with rfl | hold
  · dsimp only at htime hmilli ⊢
    rw [packed_eq htime, packed_eq (lt_of_le_of_lt hmilli htime)]
    omega
  · exact hclock c hold

theorem inv_of_reaches (h : Machine.Reaches next InTime {} s) : s.Inv := by
  apply h.invariant Inv
  · exact ⟨Nat.zero_le _, fun _ => ⟨increasing_nil, by simp⟩⟩
  · intro s milli s' hs _ hnext
    exact hs.next hnext

/-- **The numbers of a client increase.** As long as the stored time stays below `2 ^ 42`, the
    results increase strictly, whatever the clock does, and none lies before the clock; no call
    stops. -/
theorem results_increase (h : Machine.Reaches next InTime {} s)
    (htime : s.g.lastMilliOfUniqueFetchID < 2 ^ 42) :
    (s.calls.map Prod.snd).Pairwise (· > ·) ∧ (∀ c ∈ s.calls, packed c.1 0 ≤ c.2) ∧
      ∀ milli, ∃ g r, s.g.generateUniqueSequenceNumberForRequest milli = .ok (g, r) := by
  have hs := inv_of_reaches h
  obtain ⟨hincreasing, hclock⟩ := hs.increasing htime
  refine ⟨hincreasing.sorted, hclock, ?_⟩
  intro milli
  obtain ⟨g, hcall, -⟩ := generateUniqueSequenceNumberForRequest_spec milli hs.count_le
  exact ⟨g, _, hcall⟩

/-- The clock goes back from 7 to 5. -/
theorem results_increase_when_clock_goes_back :
    ∃ s, Machine.Reaches next InTime {} s ∧ s.calls = [(5, packed 7 1), (7, packed 7 0)] ∧
      (s.calls.map Prod.snd).Pairwise (· > ·) := by
  have hrun : Machine.Reaches next InTime {} ⟨⟨7, 1⟩, [(5, packed 7 1), (7, packed 7 0)]⟩ :=
    Machine.reaches_of_tested_runSteps (fun _ milli => decide (milli < 2 ^ 42))
      (fun _ milli h => show milli < 2 ^ 42 from of_decide_eq_true h) [7, 5] (by decide)
  exact ⟨_, hrun, rfl, (results_increase hrun (by decide)).1⟩

end Calls

end SeqNumberGeneratorForClientRequestsImp

end ConcordBft
