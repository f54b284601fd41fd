import ConcordBft.ClientsManager.Storage
import ConcordBft.ReplicaImp.Replay

set_option autoImplicit false

/-! # Executed requests and stored replies

The history of a replica lists the requests whose execution made its state: those that it executed
itself and, below a state that it fetched, those of the replicas from which the state came. For each
client the numbers in the history are strictly increasing, and the reserved pages hold the reply to
its last request. -/

namespace ConcordBft

open Checked Machine ClientsManager

/-- Executed requests with their clients, numbers and replies; the newest come first. -/
abbrev History := List (NodeIdType × ReqId × Bytes)

namespace History

/-- For each client the numbers are strictly increasing. -/
def Increasing (history : History) : Prop :=
  history.Pairwise fun later earlier => later.1 = earlier.1 → earlier.2.1 < later.2.1

/-- The number and the reply of the last executed request of a client. -/
def latest (history : History) (clientId : NodeIdType) : Option (ReqId × Bytes) :=
  (history.find? fun e => e.1 == clientId).map (·.2)

/-- The number alone; 0 if there is none. -/
def latestNumber (history : History) (clientId : NodeIdType) : ReqId :=
  ((history.latest clientId).map (·.1)).getD 0

variable {history : History} {clientId c : NodeIdType} {reqSeqNum : ReqId} {reply : Bytes}

theorem latest_cons_self :
    latest ((clientId, reqSeqNum, reply) :: history) clientId = some (reqSeqNum, reply) := by
  simp [latest]

theorem latest_cons_of_ne (hne : clientId ≠ c) :
    latest ((clientId, reqSeqNum, reply) :: history) c = latest history c := by
  simp [latest, hne]

theorem latestNumber_cons :
    latestNumber ((clientId, reqSeqNum, reply) :: history) c =
      if c = clientId then reqSeqNum else latestNumber history c := by
  by_cases hc : c = clientId
  · subst hc
    rw [latestNumber, latest_cons_self, if_pos rfl]
    rfl
  · rw [latestNumber, latest_cons_of_ne (Ne.symm hc), if_neg hc]
    rfl

theorem Increasing.le_latestNumber (h : Increasing history) {e : NodeIdType × ReqId × Bytes}
    (he : e ∈ history) : e.2.1 ≤ history.latestNumber e.1 := by
  induction history with
  | nil => simp at he
  | cons first rest ih =>
    obtain ⟨hfirst, hrest⟩ := List.pairwise_cons.1 h
    rw [latestNumber_cons]
    rcases List.mem_cons.1 he with rfl | he'
    · rw [if_pos rfl]
      exact UInt64.le_refl _
    · split_ifs with hclient
      · exact UInt64.le_of_lt (hfirst e he' hclient.symm)
      · exact ih hrest he'

theorem Increasing.cons (h : Increasing history)
    (hnew : ∀ e ∈ history, e.1 = clientId → e.2.1 < reqSeqNum) :
    Increasing ((clientId, reqSeqNum, reply) :: history) :=
  List.pairwise_cons.2 ⟨fun e he hclient => hnew e he hclient.symm, h⟩

end History

/-- The replies of the application fit in the pages of a client. -/
def RequestsHandler.RepliesFit {App : Type} (handler : RequestsHandler App) : Prop :=
  ∀ app args, (handler.execute app args).outActualReplySize ≤ (handler.execute app args).outReply.length ∧
    (handler.execute app args).outActualReplySize + sizeOfClientReplyMsgHeader ≤ maxReplyMessageSize

namespace Execution

variable {App : Type} {cfg : ReplicaConfig} {handler : RequestsHandler App} {x y : Execution App}
  {history : History} {seqNum : SeqNum} {primary : ReplicaId} {sig : Option Bytes}

/-- The memory and the reserved pages agree with a history, and the own executed requests are not
    ahead of it. -/
structure Durable (cfg : ReplicaConfig) (history : History) (x : Execution App) : Prop where
  increasing : history.Increasing
  executed : History.Increasing x.executed
  covered : ∀ e ∈ x.executed, e.2.1 ≤ history.latestNumber e.1
  cached : ∀ c, cfg.isValidClient c = true →
    x.clientsManager.seqNumberOfLastReplyToClient c = history.latestNumber c
  pages : ∀ c, cfg.isValidClient c = true →
    HoldsReply cfg x.clientsManager.reservedPages c (history.latest c)

theorem Durable.frame (h : Durable cfg history x) (hexecuted : y.executed = x.executed)
    (hpages : y.clientsManager.reservedPages = x.clientsManager.reservedPages)
    (hcached : ∀ c, y.clientsManager.seqNumberOfLastReplyToClient c =
      x.clientsManager.seqNumberOfLastReplyToClient c) : Durable cfg history y where
  increasing := h.increasing
  executed := hexecuted ▸ h.executed
  covered := hexecuted ▸ h.covered
  cached := fun c hc => (hcached c).trans (h.cached c hc)
  pages := fun c hc => hpages ▸ h.pages c hc

/-- `y` comes from `x` by executing some more requests. -/
def Extends (cfg : ReplicaConfig) (history : History) (x y : Execution App) : Prop :=
  ∃ new, y.executed = new ++ x.executed ∧ Durable cfg (new ++ history) y

/-- **One request.** A request with an old number is not executed, and a new one becomes the latest of
    its client. -/
theorem Durable.executeRequest (hfit : handler.RepliesFit) (h : Durable cfg history x)
    {req : ClientRequestMsg} {reply : Option ClientReplyMsg}
    (hexec : executeRequest cfg handler seqNum primary sig x req = .ok (y, reply)) :
    Extends cfg history x y := by
  cases hyes : x.isExecuted cfg req with
  | false =>
    obtain rfl := executeRequest_of_not_executed hyes hexec
    exact ⟨[], rfl, h⟩
  | true =>
    obtain ⟨sigBuf, -, -, -, -, hcached, hpages, hexecuted, hsize⟩ :=
      executeRequest_of_executed hyes hexec
    obtain ⟨hvalid, hnew⟩ := Bool.and_eq_true_iff.1 hyes
    obtain ⟨hwithin, hfits⟩ := hfit x.app (x.argsFor seqNum req sigBuf)
    rw [h.cached _ hvalid] at hnew
    have hnewer : ∀ (l : History), (∀ e ∈ l, e.2.1 ≤ history.latestNumber e.1) →
        ∀ e ∈ l, e.1 = req.clientProxyId → e.2.1 < req.requestSeqNum := by
      intro l hl e he hclient
      have := hl e he
      rw [hclient] at this
      lia
    have hlen : ∀ result : ExecuteResult App, result.outActualReplySize ≤ result.outReply.length →
        (result.outReply.take result.outActualReplySize).length = result.outActualReplySize :=
      fun result hle => by rw [List.length_take, min_eq_left hle]
    refine ⟨[(_, _, _)], hexecuted, ?_⟩
    constructor
    · exact h.increasing.cons (hnewer _ fun e he => h.increasing.le_latestNumber he)
    · rw [hexecuted]
      exact h.executed.cons (hnewer _ h.covered)
    · intro e he
      rw [hexecuted] at he
      rw [List.singleton_append, History.latestNumber_cons]
      rcases List.mem_cons.1 he with rfl | he'
      · rw [if_pos rfl]
        exact UInt64.le_refl _
      · split_ifs with hclient
        · exact UInt64.le_of_lt (hnewer _ h.covered e he' hclient)
        · exact h.covered e he'
    · intro c hc
      rw [hcached, List.singleton_append, History.latestNumber_cons, h.cached c hc]
    · intro c hc
      rw [hpages, List.singleton_append]
      by_cases hclient : req.clientProxyId = c
      · subst hclient
        rw [History.latest_cons_self]
        refine ⟨UInt64.lt_of_le_of_lt (UInt64.zero_le) (of_decide_eq_true hnew), ?_, ?_,
          saveReply_stores _ _ _⟩
        · rw [hlen _ hwithin]
          exact hsize
        · rw [hlen _ hwithin]
          exact hfits
      · rw [History.latest_cons_of_ne hclient]
        refine (h.pages c hc).saveReply_other hvalid hc hclient ?_
        rw [hlen _ hwithin]
        exact hfits

/-- **The requests of a PrePrepare.** -/
theorem Durable.executeRequests (hfit : handler.RepliesFit) {reqs : List ClientRequestMsg}
    (h : Durable cfg history x) {replies : List (NodeIdType × ClientReplyMsg)}
    (hexec : executeRequests cfg handler seqNum primary sig reqs x = .ok (y, replies)) :
    Extends cfg history x y := by
  induction reqs generalizing x history replies with
  | nil =>
    obtain rfl := congrArg Prod.fst (Except.ok.inj hexec)
    exact ⟨[], rfl, h⟩
  | cons req rest ih =>
    obtain ⟨x₁, _, _, hreq, hrest⟩ := of_executeRequests_cons hexec
    obtain ⟨new, hnew, h₁⟩ := h.executeRequest hfit hreq
    obtain ⟨new', hnew', h₂⟩ := ih h₁ hrest
    refine ⟨new' ++ new, ?_, ?_⟩
    · rw [hnew', hnew, List.append_assoc]
    · rw [List.append_assoc]
      exact h₂

end Execution

namespace ReplicaImp

open Execution

variable {App : Type} {cfg : ReplicaConfig} {handler : RequestsHandler App} {M : Scope App}
  {r r₀ r' : ReplicaImp App} {history : History} {env : Env} {n : SeqNum}

/-! ## Effects -/

/-- The replica has executed some more requests since `r₀`. -/
def ExtendsReplies (cfg : ReplicaConfig) (history : History) (r₀ r : ReplicaImp App) : Prop :=
  Extends cfg history r₀.execution r.execution

theorem ExtendsReplies.frame (h : ExtendsReplies cfg history r₀ r)
    (hexecuted : r'.execution.executed = r.execution.executed)
    (hpages : r'.execution.clientsManager.reservedPages = r.execution.clientsManager.reservedPages)
    (hcached : ∀ c, r'.execution.clientsManager.seqNumberOfLastReplyToClient c =
      r.execution.clientsManager.seqNumberOfLastReplyToClient c) :
    ExtendsReplies cfg history r₀ r' := by
  obtain ⟨new, hnew, hdurable⟩ := h
  exact ⟨new, hexecuted.trans hnew, hdurable.frame hexecuted hpages hcached⟩

section

variable (hfit : handler.RepliesFit) (htransfers : ∀ n, ¬ M.transfers n)
  (hfetches : ∀ app pages, ¬ M.fetches app pages)
include hfit htransfers hfetches

/-- Every effect but a state transfer keeps replies or executes requests. -/
theorem Effect.extendsReplies (h : ExtendsReplies cfg history r₀ r) (he : Effect cfg handler M r r') :
    ExtendsReplies cfg history r₀ r' := by
  cases he with
  | execute pp x replies hM hactive hcollecting hs hready hexec =>
    obtain ⟨new, hnew, hdurable⟩ := h
    obtain ⟨new', hnew', hdurable'⟩ := hdurable.executeRequests hfit hexec
    refine ⟨new' ++ new, ?_, ?_⟩
    · show x.executed = _
      rw [hnew', hnew, List.append_assoc]
    · rw [List.append_assoc]
      exact hdurable'
  | clients cm hpages hreplies => exact h.frame rfl hpages hreplies
  | fetch app pages hfull hf => exact absurd hf (hfetches app pages)
  | transfer n cm hfull hn | jump n cm log cps hfull hn => exact absurd hn (htransfers n)
  | enter vm pps log new hfull hm hentered => exact h.frame rfl rfl fun _ => rfl
  | _ => exact h

theorem Effects.extendsReplies (h : Durable cfg history r.execution)
    (he : Effects cfg handler M r r') : ExtendsReplies cfg history r r' :=
  he.invariant (fun _ _ h₁ he₁ => he₁.extendsReplies hfit htransfers hfetches h₁) ⟨[], rfl, h⟩

end

/-! ## State transfers -/

/-- Taking over the state of checkpoint `n`, before requests are executed. -/
def Scope.taking (n : SeqNum) : Scope App :=
  { proposing with full := True, moves := True, transfers := fun m => m = n }

/-- While the state is taken over, the numbers of the replies in memory are those from before, or
    those of the pages. -/
structure Taking (cfg : ReplicaConfig) (n : SeqNum) (r₀ r : ReplicaImp App) : Prop where
  executed : r.execution.executed = r₀.execution.executed
  pages : r.execution.clientsManager.reservedPages = r₀.execution.clientsManager.reservedPages
  cached : (r.lastExecutedSeqNum = r₀.lastExecutedSeqNum ∧
      ∀ c, r.execution.clientsManager.seqNumberOfLastReplyToClient c =
        r₀.execution.clientsManager.seqNumberOfLastReplyToClient c) ∨
    ∀ c, cfg.isValidClient c = true → r.execution.clientsManager.seqNumberOfLastReplyToClient c =
      (ClientReplyMsgHeader.ofBytes
        (r₀.execution.clientsManager.reservedPages (cfg.firstPageId c))).reqSeqNum

theorem Taking.adopt (h : Taking cfg n r₀ r) {cm : ClientsManager}
    (hcm : r.execution.clientsManager.loadInfoFromReservedPages cfg = .ok cm) :
    Taking cfg n r₀ (r.adopt n cm) := by
  obtain ⟨-, -, hcm⟩ := bind_eq_ok hcm
  obtain rfl := Except.ok.inj hcm
  refine ⟨h.executed, h.pages, Or.inr fun c hc => ?_⟩
  rw [← h.pages]
  simp [ReplicaImp.adopt, ClientsManager.seqNumberOfLastReplyToClient, hc, loadClient]

theorem Effect.taking (h : Taking cfg n r₀ r) (he : Effect cfg handler (Scope.taking n) r r') :
    Taking cfg n r₀ r' := by
  obtain ⟨hexecuted, hpages, hcached⟩ := h
  cases he with
  | execute _ _ _ hM => exact hM.elim
  | clients cm hpages' hreplies =>
    refine ⟨hexecuted, hpages'.trans hpages, hcached.imp (fun h => ?_) fun h c hc => ?_⟩
    · exact ⟨h.1, fun c => (hreplies c).trans (h.2 c)⟩
    · exact (hreplies c).trans (h c hc)
  | fetch _ _ _ hf => exact hf.elim
  | transfer m cm _ hn _ hcm => exact hn ▸ Taking.adopt ⟨hexecuted, hpages, hcached⟩ hcm
  | jump m cm log cps _ hn _ _ hcm =>
    have hadopt : Taking cfg m r₀ (r.adopt m cm) := Taking.adopt ⟨hexecuted, hpages, hcached⟩ hcm
    exact ⟨hadopt.executed, hadopt.pages, hadopt.cached⟩
  | enter _ _ _ _ _ hm => exact hm.elim
  | _ => exact ⟨hexecuted, hpages, hcached⟩

/-- The pages of a fetched state hold the replies of the history `later`. A state above the last
    executed number is not behind the history of the replica, and one that is not above it has the
    same replies. -/
structure StateOf (cfg : ReplicaConfig) (r : ReplicaImp App) (history : History) (n : SeqNum)
    (pages : ReservedPages) (later : History) : Prop where
  increasing : later.Increasing
  holds : ∀ c, cfg.isValidClient c = true → HoldsReply cfg pages c (later.latest c)
  covers : ∀ c, history.latestNumber c ≤ later.latestNumber c
  same : n ≤ r.lastExecutedSeqNum → ∀ c, later.latest c = history.latest c

/-- **The state that was taken over has the replies of its history.** -/
theorem Taking.durable {pages : ReservedPages} {later : History} {app : App}
    (hdurable : Durable cfg history r.execution) (hstate : StateOf cfg r history n pages later)
    (h : Taking cfg n (r.withTransferredState app pages) r')
    (hlast : r'.lastExecutedSeqNum = max r.lastExecutedSeqNum n) :
    Durable cfg later r'.execution where
  increasing := hstate.increasing
  executed := by
    rw [h.executed]
    exact hdurable.executed
  covered := fun e he => by
    rw [h.executed] at he
    exact UInt64.le_trans (hdurable.covered e he) (hstate.covers e.1)
  cached := fun c hc => by
    rcases h.cached with ⟨hsame, hcached⟩ | hcached
    · have hle : n ≤ r.lastExecutedSeqNum := by
        have : r'.lastExecutedSeqNum = r.lastExecutedSeqNum := hsame
        lia
      rw [hcached, History.latestNumber, hstate.same hle c]
      exact hdurable.cached c hc
    · rw [hcached c hc]
      exact (hstate.holds c hc).reqSeqNum_eq
  pages := fun c hc => by
    rw [h.pages]
    exact hstate.holds c hc

/-- **A completed transfer.** -/
theorem onTransferringCompleteImp_extendsReplies (hfit : handler.RepliesFit)
    {pages : ReservedPages} {later : History} {app : App}
    (hw : WellFormed cfg (r.withTransferredState app pages))
    (hdurable : Durable cfg history r.execution) (hstate : StateOf cfg r history n pages later)
    (h : (r.withTransferredState app pages).onTransferringCompleteImp cfg handler env n = .ok r') :
    ExtendsReplies cfg later r r' := by
  obtain ⟨p, hp, h⟩ := bind_eq_ok h
  obtain ⟨r₂, hr₂, h⟩ := bind_eq_ok h
  have htake : Meets (Fails cfg handler env (Scope.taking n) (r.withTransferredState app pages)) _ _ :=
    takeNewState_meets trivial trivial hw rfl
  obtain ⟨he, -, hlast⟩ := htake.of_ok hp
  have htaken : Taking cfg n (r.withTransferredState app pages) p.1 :=
    he.invariant (fun _ _ h₁ he₁ => he₁.taking h₁) ⟨rfl, rfl, Or.inl ⟨rfl, fun _ => rfl⟩⟩
  have hexecute : Does cfg handler env Scope.executing p.1 (p.1.executeAfterTransfer cfg handler env) :=
    executeAfterTransfer_does trivial trivial (he.wellFormed hw)
  obtain ⟨new, hnew, hdurable'⟩ := (Meets.of_ok hexecute hr₂).extendsReplies hfit
    (fun _ => id) (fun _ _ => id) (htaken.durable hdurable hstate hlast)
  have hfinal : r'.execution = r₂.execution := by
    obtain rfl := Except.ok.inj h
    split <;> rfl
  refine ⟨new, ?_, ?_⟩
  · rw [hfinal, hnew, htaken.executed]
    rfl
  · rw [hfinal]
    exact hdurable'

/-! ## Runs with their history -/

/-- Does the replica take over a fetched state in this step? -/
def takesState (r : ReplicaImp App) : Event App → Bool
  | .transferringComplete _ _ _ => r.isCollectingState
  | _ => false

/-- The requests executed between two states. -/
def newlyExecuted (r r' : ReplicaImp App) : History :=
  r'.execution.executed.take (r'.execution.executed.length - r.execution.executed.length)

/-- A step, together with the history. A state that is fetched comes with a history of its own, which
    is a part of the label. -/
def nextWithHistory (cfg : ReplicaConfig) (handler : RequestsHandler App)
    (s : ReplicaImp App × History) (i : Input App × History) : Option (ReplicaImp App × History) :=
  (next cfg handler s.1 i.1).map fun r =>
    (r, newlyExecuted s.1 r ++ if s.1.takesState i.1.2 then i.2 else s.2)

/-- The fetched states are states of their histories. -/
def FetchesStates (cfg : ReplicaConfig) (s : ReplicaImp App × History) (i : Input App × History) :
    Prop :=
  ∀ k app pages, i.1.2 = .transferringComplete k app pages → s.1.isCollectingState = true →
    StateOf cfg s.1 s.2 (k * checkpointWindowSize) pages i.2

theorem ExtendsReplies.durable (h : ExtendsReplies cfg history r r') :
    Durable cfg (newlyExecuted r r' ++ history) r'.execution := by
  obtain ⟨new, hnew, hdurable⟩ := h
  have heq : newlyExecuted r r' = new := by
    rw [newlyExecuted, hnew, List.length_append, Nat.add_sub_cancel, List.take_left]
  rw [heq]
  exact hdurable

theorem next_extendsReplies (hfit : handler.RepliesFit) (hw : WellFormed cfg r)
    (hdurable : Durable cfg history r.execution) {i : Input App × History}
    (hfetches : FetchesStates cfg (r, history) i) (h : next cfg handler r i.1 = some r') :
    ExtendsReplies cfg (if r.takesState i.1.2 then i.2 else history) r r' := by
  obtain ⟨⟨env, e⟩, later⟩ := i
  split_ifs with htakes
  · cases e with
    | transferringComplete k app pages =>
      have hcollecting : r.isCollectingState = true := htakes
      have hstep := of_next h
      dsimp only [step, onTransferringComplete] at hstep
      rw [if_neg (by simp [hcollecting])] at hstep
      have hfetch : Effect cfg handler (Scope.ofEvent cfg r (.transferringComplete k app pages)) r
          (r.withTransferredState app pages) := .fetch app pages trivial ⟨k, rfl⟩
      exact onTransferringCompleteImp_extendsReplies hfit (hfetch.wellFormed hw) hdurable
        (hfetches k app pages rfl hcollecting) hstep
    | _ => exact absurd htakes (by simp [takesState])
  · by_cases htransfer : ∃ k app pages, e = .transferringComplete k app pages
    · -- no state is fetched, so the event is ignored
      obtain ⟨k, app, pages, rfl⟩ := htransfer
      have hstep := of_next h
      dsimp only [step, onTransferringComplete] at hstep
      rw [if_pos (by simpa [takesState] using htakes)] at hstep
      obtain rfl := Except.ok.inj hstep
      exact ⟨[], rfl, hdurable⟩
    · refine (effects_of_next hw h).extendsReplies hfit ?_ ?_ hdurable
      · rintro m ⟨k, app, pages, he, -⟩
        exact htransfer ⟨k, app, pages, he⟩
      · rintro app pages ⟨k, he⟩
        exact htransfer ⟨k, app, pages, he⟩

theorem start_durable (app : App) (replyBuffer : Bytes) :
    Durable cfg [] (start app replyBuffer).execution where
  increasing := List.Pairwise.nil
  executed := List.Pairwise.nil
  covered := fun e he => absurd he (by simp [start])
  cached := fun c _ => rfl
  pages := fun c _ => by
    show ClientReplyMsgHeader.ofBytes (fun _ => 0) = ⟨0, 0, 0, 0⟩
    decide

/-- **Requests are executed at most once, and replies are durable.** In every run, with any messages,
    view changes and state transfers, the numbers of the requests that a replica executes are strictly
    increasing for each client, and so are those in its history. The latest stored reply of a client
    is the reply to the last request of the client in the history. -/
theorem replies_durable_of_run (hfit : handler.RepliesFit) {app : App} {replyBuffer : Bytes}
    (h : Reaches (nextWithHistory cfg handler) (FetchesStates cfg) (start app replyBuffer, [])
      (r, history)) :
    History.Increasing r.execution.executed ∧ history.Increasing ∧
    (∀ e ∈ r.execution.executed, e.2.1 ≤ history.latestNumber e.1) ∧
    ∀ clientId, cfg.isValidClient clientId = true →
      (history.latest clientId = none →
        r.execution.clientsManager.seqNumberOfLastReplyToClient clientId = 0) ∧
      ∀ reqSeqNum reply, history.latest clientId = some (reqSeqNum, reply) →
        r.execution.clientsManager.seqNumberOfLastReplyToClient clientId = reqSeqNum ∧
        ∀ currentPrimaryId, r.execution.clientsManager.allocateMsgWithLatestReply cfg clientId
          currentPrimaryId = .ok ⟨currentPrimaryId, reqSeqNum, reply⟩ := by
  have hboth : WellFormed cfg r ∧ Durable cfg history r.execution := by
    refine Reaches.invariant
      (fun s : ReplicaImp App × History => WellFormed cfg s.1 ∧ Durable cfg s.2 s.1.execution)
      ⟨start_wellFormed app replyBuffer, start_durable app replyBuffer⟩ ?_ h
    rintro ⟨r₁, history₁⟩ i ⟨r₂, history₂⟩ ⟨hw, hdurable⟩ hok hnext
    obtain ⟨r₃, hr₃, heq⟩ := Option.map_eq_some_iff.1 hnext
    obtain ⟨rfl, rfl⟩ := Prod.mk.inj heq
    exact ⟨(effects_of_next hw hr₃).wellFormed hw, (next_extendsReplies hfit hw hdurable hok hr₃).durable⟩
  obtain ⟨-, hdurable⟩ := hboth
  refine ⟨hdurable.executed, hdurable.increasing, hdurable.covered, fun clientId hvalid => ?_⟩
  have hcached := hdurable.cached clientId hvalid
  have hpages := hdurable.pages clientId hvalid
  rw [History.latestNumber] at hcached
  refine ⟨fun hnone => ?_, fun reqSeqNum reply hsome => ?_⟩
  · rw [hcached, hnone]
    rfl
  · rw [hsome] at hcached hpages
    exact ⟨hcached, HoldsReply.allocateMsgWithLatestReply hpages hcached⟩

/-- A reply of the fetched state: request 2 of client 4 was answered by 8. -/
def fetchedReply : ClientReplyMsg := ⟨0, 2, [8]⟩

/-- The same request of client 4 is committed for the numbers 1 and 2. Two checkpoints then show that the
    replica is behind, and it fetches the state of checkpoint 600 with its history. -/
def commitTwiceAndFetch (cfg : ReplicaConfig) : List (Input Unit × History) :=
  let behind : List (Input Unit) :=
    [({}, .receive (.checkpoint ⟨0, 450, 7#256, true⟩)),
     ({}, .receive (.checkpoint ⟨2, 450, 7#256, true⟩))]
  let fetch : Input Unit := ({}, .transferringComplete 4 () (saveReply (fun _ _ => 0)
    (cfg.firstPageId 4) fetchedReply.body))
  (commitOnFastPath 1 2 [5] ++ (commitOnFastPath 2 3 [1] ++ behind)).map (·, []) ++
    [(fetch, [(4, 2, [8]), (4, 1, [1])])]

instance (pages : ReservedPages) (firstPageId : ℕ) (body : Bytes) :
    Decidable (Stores pages firstPageId body) :=
  inferInstanceAs (Decidable (∀ k < body.length, _))

/-- A test for `FetchesStates` along `commitTwiceAndFetch`. -/
def fetchesTest (cfg : ReplicaConfig) (s : ReplicaImp Unit × History) (i : Input Unit × History) :
    Bool :=
  match i.1.2 with
  | .transferringComplete k _ pages =>
    s.2 == [(4, 1, [1])] && i.2 == [(4, 2, [8]), (4, 1, [1])] &&
      s.1.lastExecutedSeqNum < k * checkpointWindowSize &&
      decide (Stores pages (cfg.firstPageId 4) fetchedReply.body)
  | _ => true

theorem fetchesStates_of_test (s : ReplicaImp Unit × History) (i : Input Unit × History)
    (h : fetchesTest (signingReplicas 1) s i = true) : FetchesStates (signingReplicas 1) s i := by
  intro k app pages hevent _
  simp only [fetchesTest, hevent, Bool.and_eq_true, beq_iff_eq, decide_eq_true_eq] at h
  obtain ⟨⟨⟨hhistory, hlater⟩, hlast⟩, hstores⟩ := h
  rw [hhistory, hlater]
  refine ⟨?_, fun c hc => ?_, fun c => ?_, fun hle => absurd hlast (by lia)⟩
  · exact List.pairwise_pair.2 fun _ => by decide
  · obtain rfl : c = 4 := by
      obtain ⟨hlo, hhi⟩ := Bool.and_eq_true_iff.1 hc
      exact Nat.le_antisymm (Nat.le_of_lt_succ (of_decide_eq_true hhi)) (of_decide_eq_true hlo)
    exact ⟨by decide, by decide, by decide, hstores⟩
  · rw [History.latestNumber_cons, History.latestNumber_cons]
    split_ifs with hc
    · decide
    · rw [History.latestNumber_cons, if_neg hc]
      exact UInt64.le_refl _

set_option maxRecDepth 4000 in
/-- Replica 1 executes the request once, and after the transfer the reply of the fetched state is
    returned. -/
theorem replies_durable_of_fetch :
    ∃ r, History.Increasing (r : ReplicaImp Unit).execution.executed ∧
      r.execution.executed = [(4, 1, [1])] ∧ r.lastExecutedSeqNum = 600 ∧
      r.execution.clientsManager.allocateMsgWithLatestReply (signingReplicas 1) 4 0 =
        .ok ⟨0, 2, [8]⟩ := by
  obtain ⟨⟨r, history⟩, hreach, hhistory, hexecuted, hlast⟩ :
      ∃ s, Reaches (nextWithHistory (signingReplicas 1) constantReply)
        (FetchesStates (signingReplicas 1)) (start () [], []) s ∧
        s.2 = [(4, 2, [8]), (4, 1, [1])] ∧ s.1.execution.executed = [(4, 1, [1])] ∧
        s.1.lastExecutedSeqNum = 600 :=
    exists_reaches_of_test (fetchesTest (signingReplicas 1)) fetchesStates_of_test
      (commitTwiceAndFetch (signingReplicas 1)) (by decide +kernel)
  have hfit : constantReply.RepliesFit := fun _ _ => ⟨le_refl 1, show 17 ≤ 8192 by decide⟩
  obtain ⟨hincreasing, -, -, hreplies⟩ := replies_durable_of_run hfit hreach
  have hlatest : history.latest 4 = some (2, [8]) := by
    rw [show history = [(4, 2, [8]), (4, 1, [1])] from hhistory]
    rfl
  exact ⟨r, hincreasing, hexecuted, hlast, ((hreplies 4 (by decide)).2 2 [8] hlatest).2 0⟩

end ReplicaImp

end ConcordBft
