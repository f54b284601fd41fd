import ConcordBft.ReplicaImp.Runs
import ConcordBft.ReplicatedExecution
import ConcordBft.Threshsign.BlsMultisig

set_option autoImplicit false

/-! # The execution of a replica is a replay of its numbers

Along a run without state transfers, the state of the application, the replies of the clients and the
history of calls are those of executing the recorded numbers one after the other: nothing else that a
replica does touches them. So two runs can be compared number by number, whatever views, paths and
messages they went through. -/

namespace ConcordBft

open Checked Machine List

variable {App : Type}

/-- What the execution of a number depends on. -/
def CommittedNumber.evidence (k : CommittedNumber) : List ClientRequestMsg × Option Bytes :=
  (k.requests, k.thresholSignature)

namespace Execution

variable {x y z : Execution App}

theorem Agree.refl (x : Execution App) : Agree x x := ⟨rfl, fun _ => rfl, rfl, rfl, rfl⟩

theorem Agree.symm (h : Agree x y) : Agree y x :=
  ⟨h.app.symm, fun i => (h.lastReply i).symm, h.pages.symm, h.buffer.symm, h.calls.symm⟩

theorem Agree.trans (h : Agree x y) (h' : Agree y z) : Agree x z :=
  ⟨h.app.trans h'.app, fun i => (h.lastReply i).trans (h'.lastReply i), h.pages.trans h'.pages,
    h.buffer.trans h'.buffer, h.calls.trans h'.calls⟩

end Execution

theorem SameSystem.refl (cfg : ReplicaConfig) : SameSystem cfg cfg := ⟨rfl, rfl⟩

namespace ReplicaImp

variable {cfg cfg' : ReplicaConfig} {handler : RequestsHandler App} {M : Scope App}
  {r r' : ReplicaImp App} {x₀ : Execution App}

/-- The evidence of an executed number in the trace. -/
def executedNumber : Action → Option (List ClientRequestMsg × Option Bytes)
  | .execute _ requests thresholSignature => some (requests, thresholSignature)
  | _ => none

/-- The numbers that a replica executed, from the first to the last. -/
def executedNumbers (r : ReplicaImp App) : List (List ClientRequestMsg × Option Bytes) :=
  (r.trace.filterMap executedNumber).reverse

/-- The replica is where executing its numbers from `x₀` on leads. -/
def Replays (cfg : ReplicaConfig) (handler : RequestsHandler App) (x₀ : Execution App)
    (r : ReplicaImp App) : Prop :=
  ∃ numbers x, numbers.map CommittedNumber.evidence = r.executedNumbers ∧
    runSteps (Execution.nextNumber cfg handler) (0, x₀) numbers = some (r.lastExecutedSeqNum, x) ∧
    x.Agree r.execution

/-- Changes that leave the executed numbers alone. -/
theorem Replays.frame (h : Replays cfg handler x₀ r)
    (htrace : r'.trace.filterMap executedNumber = r.trace.filterMap executedNumber)
    (hlast : r'.lastExecutedSeqNum = r.lastExecutedSeqNum)
    (hagree : r.execution.Agree r'.execution) : Replays cfg handler x₀ r' := by
  obtain ⟨numbers, x, hnumbers, hrun, hx⟩ := h
  refine ⟨numbers, x, ?_, ?_, hx.trans hagree⟩
  · rw [hnumbers, executedNumbers, executedNumbers, htrace]
  · rw [hlast]
    exact hrun

theorem executedNumber_of_recordable {a : Action} (h : Recordable cfg M r a) :
    executedNumber a = none := by
  cases a with
  | execute s requests sig => exact h.elim
  | _ => rfl

theorem executedNumber_of_entry {vm : ViewsManager} {pps : List PrePrepareMsg} {a : Action}
    (h : EntryAction cfg r vm pps a) : executedNumber a = none := by
  cases h <;> rfl

/-- **Every effect but a state transfer keeps the replay.** -/
theorem Effect.replays (htransfers : ∀ n, ¬ M.transfers n) (hfetches : ∀ app pages, ¬ M.fetches app pages)
    (h : Replays cfg handler x₀ r) (he : Effect cfg handler M r r') : Replays cfg handler x₀ r' := by
  have hsame := Execution.Agree.refl r.execution
  cases he with
  | record a ha =>
    exact h.frame (filterMap_cons_none (executedNumber_of_recordable ha)) rfl hsame
  | accept => exact h.frame rfl rfl hsame
  | execute pp x replies hM hactive hcollecting hs hready hexec =>
    obtain ⟨numbers, y, hnumbers, hrun, hy⟩ := h
    obtain ⟨⟨y', replies'⟩, hy'⟩ : ∃ p, y.executeRequests cfg handler (r.lastExecutedSeqNum + 1)
        (r.currentPrimary cfg) (r.proofOf (r.lastExecutedSeqNum + 1)) pp.requests = .ok p :=
      hy.symm.executeRequests_returns (SameSystem.refl cfg) hexec
    have hnext : Execution.nextNumber cfg handler (r.lastExecutedSeqNum, y)
        ⟨pp.requests, r.currentPrimary cfg, r.proofOf (r.lastExecutedSeqNum + 1)⟩ =
        some (r.lastExecutedSeqNum + 1, y') := by
      simp only [Execution.nextNumber, hy']
    refine ⟨numbers ++ [⟨pp.requests, r.currentPrimary cfg, r.proofOf (r.lastExecutedSeqNum + 1)⟩],
      y', ?_, ?_, (hy.symm.executeRequests (SameSystem.refl cfg) hexec hy').symm⟩
    · rw [map_append, hnumbers]
      exact (reverse_cons).symm
    · rw [runSteps_append, hrun, Option.bind_some, runSteps, hnext]
      rfl
  | clients cm hpages hreplies =>
    exact h.frame rfl rfl ⟨rfl, fun i => (hreplies i).symm, hpages.symm, rfl, rfl⟩
  | fetch app pages hfull hf => exact absurd hf (hfetches app pages)
  | transfer n cm hfull hn | jump n cm log cps hfull hn => exact absurd hn (htransfers n)
  | leave v m vm log => exact h.frame rfl rfl hsame
  | enter vm pps log new hfull hm hentered =>
    obtain ⟨last, hcounters, -⟩ := counters_of_entry hentered.enters
    refine h.frame ?_ ?_ ⟨rfl, fun i => rfl, rfl, rfl, rfl⟩
    · have hnew : new.filterMap executedNumber = [] :=
        filterMap_eq_nil_iff.2 fun a ha => executedNumber_of_entry (hentered.actions a ha)
      show (new ++ r.trace).filterMap executedNumber = _
      rw [filterMap_append, hnew, nil_append]
    · rw [enterWith, hcounters]
  | _ => exact h.frame rfl rfl hsame

/-- A step that is not the end of a state transfer. -/
def NoTransfer (_ : ReplicaImp App) (i : Input App) : Prop :=
  ∀ k app pages, i.2 ≠ .transferringComplete k app pages

theorem RunsTo.replays {app : App} {replyBuffer : Bytes}
    (h : RunsTo cfg handler NoTransfer (start app replyBuffer) r) :
    Replays cfg handler (start app replyBuffer).execution r := by
  have hboth : WellFormed cfg r ∧ Replays cfg handler (start app replyBuffer).execution r := by
    refine Reaches.invariant
      (fun r₁ => WellFormed cfg r₁ ∧ Replays cfg handler (start app replyBuffer).execution r₁)
      ⟨start_wellFormed app replyBuffer, [], _, rfl, rfl, Execution.Agree.refl _⟩ ?_ h
    rintro r₁ i r₂ ⟨hw, hreplays⟩ hno hnext
    have heff := effects_of_next hw hnext
    refine ⟨heff.wellFormed hw, heff.invariant (fun _ _ h₁ he => ?_) hreplays⟩
    refine he.replays ?_ ?_ h₁
    · rintro n ⟨k, app, pages, hk, -⟩
      exact hno k app pages hk
    · rintro app pages ⟨k, hk⟩
      exact hno k app pages hk
  exact hboth.2

/-- **Replicated execution depends on the commit proofs.** Two replicas of one system start from the
    same state and have executed the same requests, number by number, in runs of any kind without
    state transfers. After every number their application states, replies, reserved pages and all
    arguments handed to the application are equal if and only if, for each number with a request that
    is executed, the full commit proofs of the two replicas have the same signature bytes. -/
theorem executions_agree_iff_sameProofs (hsys : SameSystem cfg cfg') {app : App} {replyBuffer : Bytes}
    (h : RunsTo cfg handler NoTransfer (start app replyBuffer) r)
    (h' : RunsTo cfg' handler NoTransfer (start app replyBuffer) r')
    (hreq : r.executedNumbers.map (·.1) = r'.executedNumbers.map (·.1)) :
    ∃ (numbers : List (CommittedNumber × CommittedNumber)) (u : TwoReplicas App),
      numbers.map (·.1.evidence) = r.executedNumbers ∧
      numbers.map (·.2.evidence) = r'.executedNumbers ∧
      runSteps (TwoReplicas.next cfg cfg' handler)
        ⟨0, (start app replyBuffer).execution, (start app replyBuffer).execution⟩ numbers = some u ∧
      u.first.Agree r.execution ∧ u.second.Agree r'.execution ∧
      ((∀ done rest, numbers = done ++ rest → ∀ w, runSteps (TwoReplicas.next cfg cfg' handler)
            ⟨0, (start app replyBuffer).execution, (start app replyBuffer).execution⟩ done = some w →
          w.Agree) ↔
        ∀ done k rest, numbers = done ++ k :: rest → ∀ w,
          runSteps (TwoReplicas.next cfg cfg' handler)
            ⟨0, (start app replyBuffer).execution, (start app replyBuffer).execution⟩ done = some w →
          w.first.executesRequest cfg k.1.requests = true →
            k.1.thresholSignature = k.2.thresholSignature) := by
  obtain ⟨first, x, hfirst, hrun, hx⟩ := RunsTo.replays h
  obtain ⟨second, y, hsecond, hrun', hy⟩ := RunsTo.replays h'
  have hlen : first.length = second.length := by
    have := congrArg length hreq
    rw [← hfirst, ← hsecond] at this
    simpa using this
  have hleft : (first.zip second).map (·.1) = first := map_fst_zip (le_of_eq hlen)
  have hright : (first.zip second).map (·.2) = second := map_snd_zip (le_of_eq hlen.symm)
  have hsame : ∀ k ∈ first.zip second, k.1.requests = k.2.requests := by
    have hrequests : first.map (·.requests) = second.map (·.requests) := by
      rw [← hfirst, ← hsecond, map_map, map_map] at hreq
      exact hreq
    intro k hk
    obtain ⟨i, hi, rfl⟩ := mem_iff_getElem.1 hk
    have hat := congrArg (fun l => l[i]?) hrequests
    rw [length_zip] at hi
    have hi' : i < second.length := by omega
    have hi'' : i < first.length := by omega
    simpa [hi', hi''] using hat
  have hstart : TwoReplicas.Agree ⟨0, (start app replyBuffer).execution,
    (start app replyBuffer).execution⟩ := Execution.Agree.refl _
  have hboth : runSteps (TwoReplicas.next cfg cfg' handler) ⟨0, (start app replyBuffer).execution,
      (start app replyBuffer).execution⟩ (first.zip second) = some ⟨r.lastExecutedSeqNum, x, y⟩ :=
    TwoReplicas.runSteps_of_both (by rw [hleft]; exact hrun) (by rw [hright]; exact hrun')
  refine ⟨first.zip second, _, ?_, ?_, hboth, hx, hy,
    TwoReplicas.agree_iff_sameProofs hsys hstart hsame hboth⟩
  · rw [← hfirst, ← hleft, map_map, hleft]
    rfl
  · rw [← hsecond, ← hright, map_map, hright]
    rfl

/-! ## Two replicas with different evidence -/

/-- The multisignature schemes of four replicas: `2F + C + 1` signers on the slow path, and all of them
    for the two keys of the fast paths. -/
def verifierOfFour : ThresholdKey → Threshsign.BlsMultisigVerifier (ZMod 7) (ZMod 7) (ZMod 7)
  | .SlowPathCommit => Threshsign.signersOfFour 3
  | .Commit => Threshsign.signersOfFour 4
  | .OptimisticCommit => Threshsign.signersOfFour 4

/-- `fourReplicas` with multisignatures. -/
def signingReplicas (myId : Fin 4) : ReplicaConfig :=
  { fourReplicas myId with
    verify := fun key digest sig =>
      ((verifierOfFour key).verify (LittleEndian.encode 32 digest.toNat).reverse sig).toOption.getD
        false }

/-- The primary proposes a request of client 4 for a number, and a replica sends the full proof of the
    optimistic path. -/
def commitOnFastPath (seqNum : SeqNum) (sender : ReplicaId) (sig : Bytes) : List (Input Unit) :=
  [({}, .receive (.prePrepare
      ⟨0, 0, seqNum, .OPTIMISTIC_FAST, false, 2#256, [⟨4, 1, false, [9], 0⟩]⟩)),
   ({}, .receive (.fullCommitProof ⟨sender, 0, seqNum, sig⟩))]

def noTransferTest (_ : ReplicaImp Unit) (i : Input Unit) : Bool :=
  match i.2 with
  | .transferringComplete _ _ _ => false
  | _ => true

theorem noTransfer_of_test (r : ReplicaImp Unit) (i : Input Unit) (h : noTransferTest r i = true) :
    NoTransfer r i := by
  intro k app pages hk
  simp [noTransferTest, hk] at h

/-- The run that commits number 1 executes it. -/
theorem run_commitOnFastPath (myId : Fin 4) (sender : ReplicaId) (sig : Bytes)
    (h : (runSteps (fun r i => if noTransferTest r i then next (signingReplicas myId) constantReply r i
      else none) (start () []) (commitOnFastPath 1 sender sig)).any (fun r =>
        decide (r.executedNumbers = [([⟨4, 1, false, [9], 0⟩], some sig)] ∧
          r.execution.calls = [⟨4, 1, false, [9], 8176, atoh sig, 2 * sig.length⟩])) = true) :
    ∃ r, RunsTo (signingReplicas myId) constantReply NoTransfer (start () []) r ∧
      r.executedNumbers = [([⟨4, 1, false, [9], 0⟩], some sig)] ∧
      r.execution.calls = [⟨4, 1, false, [9], 8176, atoh sig, 2 * sig.length⟩] :=
  exists_reaches_of_test noTransferTest noTransfer_of_test _ h

set_option maxRecDepth 4000 in
/-- The four replicas signed the proposal, and their multisignature is `[5]`. The collector 2 sends it to
    replica 1. The faulty primary sends it to replica 3 with one more byte, which the verifier does not
    look at: the two replicas execute the same request with different arguments. -/
theorem executions_differ_on_trailingByte :
    ∃ r r', RunsTo (signingReplicas 1) constantReply NoTransfer (start () []) r ∧
      RunsTo (signingReplicas 3) constantReply NoTransfer (start () []) r' ∧
      r.executedNumbers = [([⟨4, 1, false, [9], 0⟩], some [5])] ∧
      r'.executedNumbers = [([⟨4, 1, false, [9], 0⟩], some [5, 0])] ∧
      r.execution.calls ≠ r'.execution.calls := by
  obtain ⟨r, hr, hnumbers, hcalls⟩ := run_commitOnFastPath 1 2 [5] (by decide +kernel)
  obtain ⟨r', hr', hnumbers', hcalls'⟩ := run_commitOnFastPath 3 0 [5, 0] (by decide +kernel)
  refine ⟨r, r', hr, hr', hnumbers, hnumbers', ?_⟩
  rw [hcalls, hcalls']
  decide

set_option maxRecDepth 4000 in
/-- With the same bytes the two executions agree. -/
theorem executions_agree_on_sameBytes :
    ∃ r r', RunsTo (signingReplicas 1) constantReply NoTransfer (start () []) r ∧
      RunsTo (signingReplicas 3) constantReply NoTransfer (start () []) r' ∧
      r.executedNumbers.length = 1 ∧ r.execution.Agree r'.execution := by
  obtain ⟨r, hr, hnumbers, -⟩ := run_commitOnFastPath 1 2 [5] (by decide +kernel)
  obtain ⟨r', hr', hnumbers', -⟩ := run_commitOnFastPath 3 2 [5] (by decide +kernel)
  have hsys : SameSystem (signingReplicas 1) (signingReplicas 3) := ⟨rfl, rfl⟩
  obtain ⟨numbers, u, hfirst, hsecond, hrun, hu, hu', hiff⟩ :=
    executions_agree_iff_sameProofs hsys hr hr' (by rw [hnumbers, hnumbers'])
  refine ⟨r, r', hr, hr', by rw [hnumbers]; rfl, ?_⟩
  have hagree : u.Agree := by
    refine hiff.2 (fun done k rest hsplit w _ _ => ?_) numbers [] (by simp) u hrun
    have hevidence : ∀ j ∈ numbers, j.1.evidence = j.2.evidence := by
      refine map_inj_left.1 ?_
      rw [hfirst, hsecond, hnumbers, hnumbers']
    exact congrArg Prod.snd (hevidence k (by simp [hsplit]))
  exact hu.symm.trans (hagree.trans hu')

end ReplicaImp

end ConcordBft
