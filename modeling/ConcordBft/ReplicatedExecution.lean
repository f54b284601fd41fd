import ConcordBft.ClientsManager
import ConcordBft.Lib.Machine
import Mathlib.Tactic.IntervalCases

set_option autoImplicit false

/-! # What replicated execution depends on

Two replicas that execute the same requests in the same order should hand the same arguments to
their applications. The loop over the requests, however, copies the hexadecimal form of the full
commit proof into the reply buffer, and the proof is local evidence of the replica. So the two
executions agree exactly as long as the proofs of the two replicas have the same bytes, for every
number with a request that is executed. -/

namespace ConcordBft

open Checked Machine ClientsManager Execution List

variable {App : Type}

/-! ## The hexadecimal form of a signature -/

theorem hexDigits_injective {b c : UInt8} (h : hexDigits b = hexDigits c) : b = c := by
  have hdigit : ∀ m < 16, ∀ n < 16,
      (if m < 10 then 48 + m else 87 + m).toUInt8 = (if n < 10 then 48 + n else 87 + n).toUInt8 →
      m = n := by decide
  have hb := b.toNat_lt
  have hc := c.toNat_lt
  simp only [hexDigits, cons.injEq, and_true] at h
  have hhigh := hdigit _ (by omega) _ (by omega) h.1
  have hlow := hdigit _ (by omega) _ (by omega) h.2
  exact UInt8.toNat_inj.1 (by omega)

theorem length_atoh (bin : Bytes) : (atoh bin).length = bin.length * 2 := by
  induction bin with
  | nil => rfl
  | cons b rest ih =>
    simp only [atoh, flatMap_cons, length_append] at ih ⊢
    simp only [hexDigits, length_cons, length_nil]
    omega

theorem atoh_injective {a b : Bytes} (h : atoh a = atoh b) : a = b := by
  induction a generalizing b with
  | nil =>
    have hlen := congrArg length h
    rw [length_atoh, length_atoh] at hlen
    exact (length_eq_zero_iff.1 (by simpa using hlen.symm)).symm
  | cons x rest ih =>
    cases b with
    | nil => exact absurd (congrArg length h) (by simp [length_atoh])
    | cons y rest' =>
      have hcons : hexDigits x ++ atoh rest = hexDigits y ++ atoh rest' := h
      obtain ⟨hxy, hrest⟩ := append_inj hcons rfl
      rw [hexDigits_injective hxy, ih hrest]

/-- The front of the buffer shows what was copied there. -/
theorem memcpy_injective {buffer a b : Bytes} (hlen : a.length = b.length)
    (h : memcpy buffer a = memcpy buffer b) : a = b :=
  (append_inj h hlen).1

/-! ## Two executions of the same requests -/

/-- The two replicas belong to one system. -/
structure SameSystem (cfg cfg' : ReplicaConfig) : Prop where
  replicas : cfg.toReplicasInfo = cfg'.toReplicasInfo
  clients : cfg.numOfClientProxies = cfg'.numOfClientProxies

namespace Execution

/-- The replicated state is the same, and the application has been called with the same arguments.
    Pending requests are local. -/
structure Agree (x y : Execution App) : Prop where
  app : x.app = y.app
  lastReply : ∀ i, x.clientsManager.seqNumberOfLastReplyToClient i =
    y.clientsManager.seqNumberOfLastReplyToClient i
  pages : x.clientsManager.reservedPages = y.clientsManager.reservedPages
  buffer : x.replyBuffer = y.replyBuffer
  calls : x.calls = y.calls

/-- Will `req` be handed to the application? -/
def isExecuted (cfg : ReplicaConfig) (x : Execution App) (req : ClientRequestMsg) : Bool :=
  cfg.isValidClient req.clientProxyId &&
    decide (x.clientsManager.seqNumberOfLastReplyToClient req.clientProxyId < req.requestSeqNum)

/-- Is any of the requests handed to the application? -/
def executesRequest (cfg : ReplicaConfig) (x : Execution App) (reqs : List ClientRequestMsg) :
    Bool := reqs.any (x.isExecuted cfg)

/-- The arguments of `execute` for a request, with the signature of the full commit proof. -/
def argsFor (x : Execution App) (seqNum : SeqNum) (req : ClientRequestMsg) (sigBuf : Bytes) :
    ExecuteArgs :=
  ⟨req.clientProxyId, seqNum, req.isReadOnly, req.request,
    maxReplyMessageSize - sizeOfClientReplyMsgHeader, memcpy x.replyBuffer (atoh sigBuf),
    sigBuf.length * 2⟩

variable {cfg cfg' : ReplicaConfig} {handler : RequestsHandler App} {seqNum : SeqNum}
  {primary primary' : ReplicaId} {sig sig' : Option Bytes} {x x' y y' : Execution App}
  {replies : List (NodeIdType × ClientReplyMsg)} {reqs : List ClientRequestMsg}
  {req : ClientRequestMsg} {reply : Option ClientReplyMsg}
  {replies replies' : List (NodeIdType × ClientReplyMsg)}

theorem isValidClient_congr (hsys : SameSystem cfg cfg') (clientId : NodeIdType) :
    cfg.isValidClient clientId = cfg'.isValidClient clientId := by
  unfold ReplicaConfig.isValidClient
  rw [hsys.replicas, hsys.clients]

theorem firstPageId_congr (hsys : SameSystem cfg cfg') (clientId : NodeIdType) :
    cfg.firstPageId clientId = cfg'.firstPageId clientId := by
  rw [ReplicaConfig.firstPageId, ReplicaConfig.firstPageId, hsys.replicas]

theorem isExecuted_congr (hsys : SameSystem cfg cfg') (h : Agree x x') (req : ClientRequestMsg) :
    x.isExecuted cfg req = x'.isExecuted cfg' req := by
  rw [isExecuted, isExecuted, isValidClient_congr hsys, h.lastReply]

theorem executeRequest_of_not_executed (hno : x.isExecuted cfg req = false)
    (h : executeRequest cfg handler seqNum primary sig x req = .ok (y, reply)) : y = x := by
  unfold executeRequest at h
  by_cases hvalid : cfg.isValidClient req.clientProxyId = false
  · rw [if_pos hvalid] at h
    exact (congrArg Prod.fst (Except.ok.inj h)).symm
  rw [if_neg hvalid] at h
  have hold : req.requestSeqNum ≤
      x.clientsManager.seqNumberOfLastReplyToClient req.clientProxyId := by
    simp only [isExecuted, Bool.and_eq_false_iff, decide_eq_false_iff_not, UInt64.not_lt] at hno
    exact hno.resolve_left hvalid
  rw [if_pos hold] at h
  obtain ⟨m, -, hm⟩ := bind_eq_ok h
  exact (congrArg Prod.fst (Except.ok.inj hm)).symm

theorem executeRequest_of_executed (hyes : x.isExecuted cfg req = true)
    (h : executeRequest cfg handler seqNum primary sig x req = .ok (y, reply)) :
    ∃ sigBuf, sig = some sigBuf ∧
      let args := x.argsFor seqNum req sigBuf
      let result := handler.execute x.app args
      y.app = result.app ∧ y.replyBuffer = result.outReply ∧ y.calls = args :: x.calls ∧
      (∀ i, y.clientsManager.seqNumberOfLastReplyToClient i =
        if i = req.clientProxyId then req.requestSeqNum
        else x.clientsManager.seqNumberOfLastReplyToClient i) ∧
      y.clientsManager.reservedPages = saveReply x.clientsManager.reservedPages
        (cfg.firstPageId req.clientProxyId)
        (ClientReplyMsg.mk 0 req.requestSeqNum
          (result.outReply.take result.outActualReplySize)).body ∧
      y.executed = (req.clientProxyId, req.requestSeqNum,
        result.outReply.take result.outActualReplySize) :: x.executed ∧
      0 < result.outActualReplySize := by
  obtain ⟨hvalid, hnew⟩ := Bool.and_eq_true_iff.1 hyes
  have hnew' := of_decide_eq_true hnew
  unfold executeRequest at h
  rw [if_neg (by simp [hvalid]), if_neg (UInt64.not_le.2 hnew')] at h
  cases sig with
  | none => simp at h
  | some sigBuf =>
    obtain ⟨-, -, h⟩ := bind_eq_ok h
    obtain ⟨_, hsize, h⟩ := bind_eq_ok h
    obtain ⟨⟨cm, m⟩, hcm, h⟩ := bind_eq_ok h
    obtain ⟨-, -, hcm⟩ := bind_eq_ok hcm
    obtain rfl := congrArg Prod.fst (Except.ok.inj h)
    obtain rfl := congrArg Prod.fst (Except.ok.inj hcm)
    refine ⟨sigBuf, rfl, rfl, rfl, rfl, fun i => ?_, rfl, rfl, require_eq_ok_iff.1 hsize⟩
    by_cases hi : i = req.clientProxyId
    · subst hi
      simp [seqNumberOfLastReplyToClient, updateClient, removePendingRequestOfClient]
    · simp [seqNumberOfLastReplyToClient, updateClient, removePendingRequestOfClient, hi]

/-- The stored reply only differs in the primary. -/
theorem Agree.allocateMsgWithLatestReply (hsys : SameSystem cfg cfg') (h : Agree x x')
    {clientId : NodeIdType} {m : ClientReplyMsg}
    (hm : x.clientsManager.allocateMsgWithLatestReply cfg clientId primary = .ok m) :
    ∃ m', x'.clientsManager.allocateMsgWithLatestReply cfg' clientId primary' = .ok m' := by
  unfold ClientsManager.allocateMsgWithLatestReply at hm ⊢
  have hlast : (x'.clientsManager.indexToClientInfo clientId).lastSeqNumberOfReply =
      (x.clientsManager.indexToClientInfo clientId).lastSeqNumberOfReply :=
    (h.lastReply clientId).symm
  rw [hlast, ← h.pages, ← firstPageId_congr hsys]
  obtain ⟨h₁, hm⟩ := require_bind_eq_ok hm
  obtain ⟨h₂, hm⟩ := require_bind_eq_ok hm
  obtain ⟨h₃, hm⟩ := require_bind_eq_ok hm
  obtain ⟨h₄, hm⟩ := require_bind_eq_ok hm
  obtain ⟨h₅, hm⟩ := require_bind_eq_ok hm
  simp only [Assert, require_of h₁, require_of h₂, require_of h₃, require_of h₄, require_of h₅]
  exact ⟨_, rfl⟩

open Execution

/-- With the same signature, one request is executed in the same way. -/
theorem Agree.executeRequest (hsys : SameSystem cfg cfg') (h : Agree x x')
    {reply reply' : Option ClientReplyMsg}
    (hy : executeRequest cfg handler seqNum primary sig x req = .ok (y, reply))
    (hy' : executeRequest cfg' handler seqNum primary' sig x' req = .ok (y', reply')) :
    Agree y y' := by
  cases hex : x.isExecuted cfg req with
  | false =>
    rw [executeRequest_of_not_executed hex hy,
      executeRequest_of_not_executed ((isExecuted_congr hsys h req).symm.trans hex) hy']
    exact h
  | true =>
    obtain ⟨b, hb, happ, hbuf, hcalls, hlast, hpages, -⟩ := executeRequest_of_executed hex hy
    obtain ⟨b', hb', happ', hbuf', hcalls', hlast', hpages', -⟩ :=
      executeRequest_of_executed ((isExecuted_congr hsys h req).symm.trans hex) hy'
    obtain rfl : b = b' := Option.some.inj (hb.symm.trans hb')
    have hargs : x.argsFor seqNum req b = x'.argsFor seqNum req b := by
      rw [argsFor, argsFor, h.buffer]
    have hpage := firstPageId_congr hsys req.clientProxyId
    refine ⟨?_, fun i => ?_, ?_, ?_, ?_⟩
    · rw [happ, happ', hargs, h.app]
    · rw [hlast, hlast', h.lastReply]
    · rw [hpages, hpages', hargs, h.app, h.pages, hpage]
    · rw [hbuf, hbuf', hargs, h.app]
    · rw [hcalls, hcalls', hargs, h.calls]

/-- If one replica executes a request, the other one does. -/
theorem Agree.executeRequest_returns (hsys : SameSystem cfg cfg') (h : Agree x x')
    (hy : Execution.executeRequest cfg handler seqNum primary sig x req = .ok (y, reply)) :
    ∃ p, Execution.executeRequest cfg' handler seqNum primary' sig x' req = .ok p := by
  unfold Execution.executeRequest at hy ⊢
  dsimp only at hy ⊢
  rw [← isValidClient_congr hsys, ← h.lastReply, ← h.buffer, ← h.app]
  by_cases hvalid : cfg.isValidClient req.clientProxyId = false
  · rw [if_pos hvalid]
    exact ⟨_, rfl⟩
  rw [if_neg hvalid] at hy ⊢
  by_cases hold : req.requestSeqNum ≤
      x.clientsManager.seqNumberOfLastReplyToClient req.clientProxyId
  · rw [if_pos hold] at hy ⊢
    obtain ⟨m, hm, -⟩ := bind_eq_ok hy
    obtain ⟨m', hm'⟩ := h.allocateMsgWithLatestReply hsys hm
    rw [hm']
    exact ⟨_, rfl⟩
  · rw [if_neg hold] at hy ⊢
    cases sig with
    | none => simp at hy
    | some sigBuf =>
      obtain ⟨h₁, hy⟩ := require_bind_eq_ok hy
      obtain ⟨h₂, hy⟩ := require_bind_eq_ok hy
      have hnew : (x'.clientsManager.indexToClientInfo req.clientProxyId).lastSeqNumberOfReply <
          req.requestSeqNum := by
        rw [← seqNumberOfLastReplyToClient, ← h.lastReply]
        lia
      simp only [Assert, require_of h₁, require_of h₂,
        allocateNewReplyMsgAndWriteToStorage, require_of hnew]
      exact ⟨_, rfl⟩

theorem of_executeRequests_cons {rest : List ClientRequestMsg}
    (h : executeRequests cfg handler seqNum primary sig (req :: rest) x = .ok (y, replies)) :
    ∃ z reply replies', executeRequest cfg handler seqNum primary sig x req = .ok (z, reply) ∧
      executeRequests cfg handler seqNum primary sig rest z = .ok (y, replies') := by
  obtain ⟨⟨z, reply⟩, hz, h⟩ := bind_eq_ok h
  obtain ⟨⟨w, replies'⟩, hw, h⟩ := bind_eq_ok h
  obtain rfl := congrArg Prod.fst (Except.ok.inj h)
  exact ⟨z, reply, replies', hz, hw⟩

theorem executeRequests_of_not_executed (hno : x.executesRequest cfg reqs = false)
    (h : executeRequests cfg handler seqNum primary sig reqs x = .ok (y, replies)) : y = x := by
  induction reqs generalizing x replies with
  | nil => exact (congrArg Prod.fst (Except.ok.inj h)).symm
  | cons req rest ih =>
    obtain ⟨hreq, hrest⟩ := Bool.or_eq_false_iff.1 hno
    obtain ⟨z, _, _, hz, hw⟩ := of_executeRequests_cons h
    obtain rfl := executeRequest_of_not_executed hreq hz
    exact ih hrest hw

theorem Agree.executeRequests (hsys : SameSystem cfg cfg') (h : Agree x x')
    (hy : executeRequests cfg handler seqNum primary sig reqs x = .ok (y, replies))
    (hy' : executeRequests cfg' handler seqNum primary' sig reqs x' = .ok (y', replies')) :
    Agree y y' := by
  induction reqs generalizing x x' replies replies' with
  | nil =>
    obtain rfl := congrArg Prod.fst (Except.ok.inj hy)
    obtain rfl := congrArg Prod.fst (Except.ok.inj hy')
    exact h
  | cons req rest ih =>
    obtain ⟨z, _, _, hz, hw⟩ := of_executeRequests_cons hy
    obtain ⟨z', _, _, hz', hw'⟩ := of_executeRequests_cons hy'
    exact ih (h.executeRequest hsys hz hz') hw hw'

theorem Agree.executeRequests_returns (hsys : SameSystem cfg cfg') (h : Agree x x')
    (hy : Execution.executeRequests cfg handler seqNum primary sig reqs x = .ok (y, replies)) :
    ∃ p, Execution.executeRequests cfg' handler seqNum primary' sig reqs x' = .ok p := by
  induction reqs generalizing x x' y replies with
  | nil => exact ⟨_, rfl⟩
  | cons req rest ih =>
    obtain ⟨z, _, _, hz, hw⟩ := of_executeRequests_cons hy
    obtain ⟨⟨z', reply'⟩, hz'⟩ : ∃ p, Execution.executeRequest cfg' handler seqNum primary' sig
      x' req = .ok p := h.executeRequest_returns hsys hz
    obtain ⟨⟨w', replies'⟩, hw'⟩ := ih (h.executeRequest hsys hz hz') hw
    simp only [Execution.executeRequests, hz', ok_bind, hw']
    exact ⟨_, rfl⟩

theorem executeRequest_calls
    (h : executeRequest cfg handler seqNum primary sig x req = .ok (y, reply)) :
    ∃ new, y.calls = new ++ x.calls := by
  cases hex : x.isExecuted cfg req with
  | false => exact ⟨[], by rw [executeRequest_of_not_executed hex h]; rfl⟩
  | true =>
    obtain ⟨b, -, -, -, hcalls, -⟩ := executeRequest_of_executed hex h
    exact ⟨[_], hcalls⟩

theorem executeRequests_calls
    (h : executeRequests cfg handler seqNum primary sig reqs x = .ok (y, replies)) :
    ∃ new, y.calls = new ++ x.calls := by
  induction reqs generalizing x replies with
  | nil =>
    obtain rfl := congrArg Prod.fst (Except.ok.inj h)
    exact ⟨[], rfl⟩
  | cons req rest ih =>
    obtain ⟨z, _, _, hz, hw⟩ := of_executeRequests_cons h
    obtain ⟨new, hnew⟩ := executeRequest_calls hz
    obtain ⟨new', hnew'⟩ := ih hw
    exact ⟨new' ++ new, by rw [hnew', hnew, append_assoc]⟩

/-- The first call for a number is the one for its first request that is executed, with the buffer
    as it was before. -/
theorem executeRequests_first_call (hyes : x.executesRequest cfg reqs = true)
    (h : executeRequests cfg handler seqNum primary sig reqs x = .ok (y, replies)) :
    ∃ sigBuf req new, sig = some sigBuf ∧ reqs.find? (x.isExecuted cfg) = some req ∧
      y.calls = new ++ [x.argsFor seqNum req sigBuf] ++ x.calls := by
  induction reqs generalizing replies with
  | nil => exact absurd hyes (by simp [executesRequest])
  | cons req rest ih =>
    obtain ⟨z, _, _, hz, hw⟩ := of_executeRequests_cons h
    cases hex : x.isExecuted cfg req with
    | true =>
      obtain ⟨b, hb, -, -, hcalls, -⟩ := executeRequest_of_executed hex hz
      obtain ⟨new, hnew⟩ := executeRequests_calls hw
      exact ⟨b, req, new, hb, by rw [find?_cons, hex], by rw [hnew, hcalls]; simp⟩
    | false =>
      have hrest : x.executesRequest cfg rest = true := by
        simpa [executesRequest, hex] using hyes
      obtain rfl := executeRequest_of_not_executed hex hz
      obtain ⟨b, req', new, hb, hfind, hnew⟩ := ih hrest hw
      exact ⟨b, req', new, hb, by rw [find?_cons, hex]; exact hfind, hnew⟩

/-- Two executions of a number agree exactly if the proofs have the same bytes, as far as they are
    used. -/
theorem agree_executeRequests_iff (hsys : SameSystem cfg cfg') (h : Agree x x')
    (hy : executeRequests cfg handler seqNum primary sig reqs x = .ok (y, replies))
    (hy' : executeRequests cfg' handler seqNum primary' sig' reqs x' = .ok (y', replies')) :
    Agree y y' ↔ (x.executesRequest cfg reqs = true → sig = sig') := by
  have hfun : x'.isExecuted cfg' = x.isExecuted cfg :=
    funext fun req => (isExecuted_congr hsys h req).symm
  have hexec : x'.executesRequest cfg' reqs = x.executesRequest cfg reqs := by
    rw [executesRequest, executesRequest, hfun]
  constructor
  · intro hagree hyes
    obtain ⟨b, req, new, hb, hfind, hcalls⟩ := executeRequests_first_call hyes hy
    obtain ⟨b', req', new', hb', hfind', hcalls'⟩ :=
      executeRequests_first_call (hexec.trans hyes) hy'
    obtain rfl : req = req' := by
      rw [hfun, hfind] at hfind'
      exact Option.some.inj hfind'
    have heq : (new ++ [x.argsFor seqNum req b]) ++ x.calls =
        (new' ++ [x'.argsFor seqNum req b']) ++ x.calls := by
      rw [← hcalls, hagree.calls, hcalls', h.calls]
    have hlast := append_inj_right' (append_cancel_right heq) rfl
    have hargs : x.argsFor seqNum req b = x'.argsFor seqNum req b' := singleton_inj.1 hlast
    have hlen : b.length = b'.length := by
      have := congrArg ExecuteArgs.outActualReplySize hargs
      simp only [argsFor] at this
      omega
    have hbuf : memcpy x.replyBuffer (atoh b) = memcpy x.replyBuffer (atoh b') := by
      have := congrArg ExecuteArgs.outReply hargs
      simpa only [argsFor, h.buffer] using this
    rw [hb, hb', atoh_injective (memcpy_injective (by rw [length_atoh, length_atoh, hlen]) hbuf)]
  · intro hsig
    cases hyes : x.executesRequest cfg reqs with
    | false =>
      rw [executeRequests_of_not_executed hyes hy,
        executeRequests_of_not_executed (hexec.trans hyes) hy']
      exact h
    | true =>
      rw [← hsig hyes] at hy'
      exact h.executeRequests hsys hy hy'

end Execution

/-! ## Runs of two replicas -/

/-- What a replica has for a committed number: the requests of the PrePrepare, the primary of the
    view in which it executes them, and the signature of its full commit proof. -/
structure CommittedNumber where
  requests : List ClientRequestMsg
  currentPrimary : ReplicaId
  thresholSignature : Option Bytes

/-- The next number is executed. -/
def Execution.nextNumber (cfg : ReplicaConfig) (handler : RequestsHandler App)
    (p : SeqNum × Execution App) (k : CommittedNumber) : Option (SeqNum × Execution App) :=
  match p.2.executeRequests cfg handler (p.1 + 1) k.currentPrimary k.thresholSignature
      k.requests with
  | .ok (x, _) => some (p.1 + 1, x)
  | .error _ => none

theorem Execution.nextNumber_eq_some {cfg : ReplicaConfig} {handler : RequestsHandler App}
    {p : SeqNum × Execution App} {k : CommittedNumber} {q : SeqNum × Execution App}
    (h : nextNumber cfg handler p k = some q) :
    ∃ replies, p.2.executeRequests cfg handler (p.1 + 1) k.currentPrimary k.thresholSignature
      k.requests = .ok (q.2, replies) ∧ q.1 = p.1 + 1 := by
  unfold nextNumber at h
  split at h
  next x replies hx =>
    obtain rfl := Option.some.inj h
    exact ⟨replies, hx, rfl⟩
  next => simp at h

/-- Two replicas that have executed the same numbers. -/
structure TwoReplicas (App : Type) where
  lastExecutedSeqNum : SeqNum
  first : Execution App
  second : Execution App

namespace TwoReplicas

/-- Both replicas execute the next number, each with what it has for it. -/
def next (cfg cfg' : ReplicaConfig) (handler : RequestsHandler App) (t : TwoReplicas App)
    (k : CommittedNumber × CommittedNumber) : Option (TwoReplicas App) :=
  let s := t.lastExecutedSeqNum + 1
  match t.first.executeRequests cfg handler s k.1.currentPrimary k.1.thresholSignature k.1.requests,
      t.second.executeRequests cfg' handler s k.2.currentPrimary k.2.thresholSignature
        k.2.requests with
  | .ok (x, _), .ok (y, _) => some ⟨s, x, y⟩
  | _, _ => none

def Agree (t : TwoReplicas App) : Prop := t.first.Agree t.second

variable {cfg cfg' : ReplicaConfig} {handler : RequestsHandler App} {t u : TwoReplicas App}
  {numbers : List (CommittedNumber × CommittedNumber)}

theorem agree_next_iff (hsys : SameSystem cfg cfg') (h : t.Agree)
    {k : CommittedNumber × CommittedNumber} (hreq : k.1.requests = k.2.requests)
    (hn : next cfg cfg' handler t k = some u) :
    u.Agree ↔ (t.first.executesRequest cfg k.1.requests = true →
      k.1.thresholSignature = k.2.thresholSignature) := by
  unfold next at hn
  simp only at hn
  split at hn
  next x _ y _ hx hy =>
    obtain rfl := Option.some.inj hn
    rw [← hreq] at hy
    exact agree_executeRequests_iff hsys h hx hy
  next => simp at hn

/-- **Replicated execution depends on the commit proofs.** Two replicas that execute the same requests
    from the same state agree after every number if and only if their commit proofs have the same
    bytes, as far as they are used. -/
theorem agree_iff_sameProofs (hsys : SameSystem cfg cfg') (h : t.Agree)
    (hreq : ∀ k ∈ numbers, k.1.requests = k.2.requests)
    (hrun : runSteps (next cfg cfg' handler) t numbers = some u) :
    (∀ done rest, numbers = done ++ rest → ∀ w, runSteps (next cfg cfg' handler) t done = some w →
      w.Agree) ↔
    (∀ done k rest, numbers = done ++ k :: rest →
      ∀ w, runSteps (next cfg cfg' handler) t done = some w →
        w.first.executesRequest cfg k.1.requests = true →
          k.1.thresholSignature = k.2.thresholSignature) := by
  constructor
  · intro hagree done k rest hsplit w hw
    rw [hsplit] at hrun
    obtain ⟨v, v', hv, hv'⟩ := runSteps_prefix hrun
    obtain rfl : v = w := Option.some.inj (hv.symm.trans hw)
    have hk : k.1.requests = k.2.requests := hreq k (by simp [hsplit])
    refine (agree_next_iff hsys (hagree done (k :: rest) hsplit v hv) hk hv').1 ?_
    refine hagree (done ++ [k]) rest (by simp [hsplit]) v' ?_
    rw [runSteps_append, hv]
    simp [runSteps, hv']
  · intro hsame done
    -- the executed numbers are extended one by one, so the induction is from the end of the list
    induction done using reverseRecOn with
    | nil =>
      intro rest _ w hw
      obtain rfl := Option.some.inj hw
      exact h
    | append_singleton done k ih =>
      intro rest hsplit w hw
      have hsplit' : numbers = done ++ k :: rest := by simp [hsplit]
      rw [runSteps_append, Option.bind_eq_some_iff] at hw
      obtain ⟨v, hv, hvw⟩ := hw
      simp only [runSteps, Option.bind_eq_some_iff, Option.some.injEq, exists_eq_right] at hvw
      have hk : k.1.requests = k.2.requests := hreq k (by simp [hsplit'])
      exact (agree_next_iff hsys (ih (k :: rest) hsplit' v hv) hk hvw).2
        (hsame done k rest hsplit' v hv)

/-- Two executions of the same numbers, side by side. -/
theorem runSteps_of_both {s n n' : SeqNum} {x y x' y' : Execution App}
    (hx : runSteps (Execution.nextNumber cfg handler) (s, x) (numbers.map (·.1)) = some (n, x'))
    (hy : runSteps (Execution.nextNumber cfg' handler) (s, y) (numbers.map (·.2)) = some (n', y')) :
    runSteps (next cfg cfg' handler) ⟨s, x, y⟩ numbers = some ⟨n, x', y'⟩ := by
  induction numbers generalizing s x y with
  | nil =>
    obtain ⟨rfl, rfl⟩ := Prod.mk.inj (Option.some.inj hx)
    obtain ⟨-, rfl⟩ := Prod.mk.inj (Option.some.inj hy)
    rfl
  | cons k rest ih =>
    obtain ⟨p, hp, hx⟩ := Option.bind_eq_some_iff.1 hx
    obtain ⟨q, hq, hy⟩ := Option.bind_eq_some_iff.1 hy
    obtain ⟨_, hp, hs⟩ := nextNumber_eq_some hp
    obtain ⟨_, hq, hs'⟩ := nextNumber_eq_some hq
    have hnext : next cfg cfg' handler ⟨s, x, y⟩ k = some ⟨s + 1, p.2, q.2⟩ := by
      simp only [next, hp, hq]
    rw [runSteps, hnext]
    refine ih ?_ ?_
    · rw [← hs]
      exact hx
    · rw [← hs']
      exact hy

end TwoReplicas

end ConcordBft
