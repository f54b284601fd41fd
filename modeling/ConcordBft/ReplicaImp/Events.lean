import ConcordBft.ReplicaImp.Handlers

set_option autoImplicit false

/-! # Runs of a replica

An event is a message, the result of a background job, a timer or a completed state transfer. `step`
takes one event together with the values of clocks and of the environment while it is handled. A run
ends when an assertion fails. -/

namespace ConcordBft

open Checked

/-- What happens to a replica. -/
inductive Event (App : Type) where
  | receive (m : Msg)
  | fullProofCreated (s : SeqNum) (sig : Bytes)
  | prepareJobResult (s : SeqNum) (result : SeqNumInfo.JobResult)
  | commitJobResult (s : SeqNum) (result : SeqNumInfo.JobResult)
  | slowPathTimer
  | infoRequestTimer
  | statusReportTimer
  | viewsChangeTimer
  /-- `onTransferringComplete`, with the application state and the reserved pages of the new
      checkpoint -/
  | transferringComplete (checkpointNumberOfNewState : ℕ) (app : App) (pages : ReservedPages)

/-- Is the message accepted by its `ToActualMsgType`? Requests are the only messages whose size is
    modelled; `MsgReceiver` drops longer ones. -/
def Msg.ToActualMsgType (cfg : ReplicaConfig) : Msg → Bool
  | .clientRequest _ m => decide (m.size ≤ maxExternalMessageSize)
  | .clientReply _ => false
  | .prePrepare m => m.ToActualMsgType cfg
  | .startSlowCommit m => m.ToActualMsgType cfg
  | .partialCommitProof m => m.ToActualMsgType cfg
  | .fullCommitProof m => cfg.isIdOfPeerReplica m.senderId
  | .preparePartial m => m.ToActualMsgType cfg
  | .prepareFull m => cfg.isIdOfPeerReplica m.senderId
  | .commitPartial m => m.ToActualMsgType cfg
  | .commitFull m => cfg.isIdOfPeerReplica m.senderId
  | .checkpoint m => m.ToActualMsgType cfg
  | .viewChange m => m.ToActualMsgType cfg
  | .newView m => m.ToActualMsgType cfg
  | .reqMissingData m => cfg.isIdOfPeerReplica m.senderId
  | .replicaStatus m => m.ToActualMsgType cfg

namespace ReplicaImp

variable {App : Type} (cfg : ReplicaConfig) (handler : RequestsHandler App) (env : Env)
  (r : ReplicaImp App)

/-- The handler of a message. -/
def onMessage : Msg → Except Failure (ReplicaImp App)
  | .clientRequest senderId m => r.onClientRequestMsg cfg handler env senderId m
  | .clientReply _ => pure r
  | .prePrepare m => r.onPrePrepareMsg cfg env m
  | .startSlowCommit m => r.onStartSlowCommitMsg cfg env m
  | .partialCommitProof m => r.onPartialCommitProofMsg cfg env m
  | .fullCommitProof m => r.onFullCommitProofMsg cfg handler env m
  | .preparePartial m => r.onPreparePartialMsg cfg env m
  | .prepareFull m => r.onPrepareFullMsg cfg env m
  | .commitPartial m => r.onCommitPartialMsg cfg env m
  | .commitFull m => r.onCommitFullMsg cfg env m
  | .checkpoint m => r.onCheckpointMsg cfg env m
  | .viewChange m => r.onViewChangeMsg cfg env m
  | .newView m => r.onNewViewMsg cfg env m
  | .reqMissingData m => r.onReqMissingDataMsg cfg m
  | .replicaStatus m => r.onReplicaStatusMsg cfg env m

/-- `metaMessageHandler_IgnoreWhenCollectingState` -/
def receive (m : Msg) : Except Failure (ReplicaImp App) :=
  if r.isCollectingState = false ∧ m.ToActualMsgType cfg = true then r.onMessage cfg handler env m
  else pure r

/-- The replica with the state that the state transfer module fetched. -/
def withTransferredState (app : App) (pages : ReservedPages) : ReplicaImp App :=
  { r with
    isCollectingState := false
    execution := { r.execution with
      app := app
      clientsManager := { r.execution.clientsManager with reservedPages := pages } } }

/-- A fetched state is taken over. -/
def onTransferringComplete (checkpointNumberOfNewState : ℕ) (app : App) (pages : ReservedPages) :
    Except Failure (ReplicaImp App) :=
  if r.isCollectingState = false then pure r
  else
    (r.withTransferredState app pages).onTransferringCompleteImp cfg handler env
      (checkpointNumberOfNewState * checkpointWindowSize)

/-- One event. -/
def step : Event App → Except Failure (ReplicaImp App)
  | .receive m => r.receive cfg handler env m
  | .fullProofCreated s sig => r.onFullProofCreated cfg handler env s sig
  | .prepareJobResult s result => r.onPrepareJobResult cfg s result
  | .commitJobResult s result => r.onCommitJobResult cfg handler env s result
  | .slowPathTimer => r.tryToStartSlowPaths cfg env
  | .infoRequestTimer => r.tryToAskForMissingInfo cfg env
  | .statusReportTimer => r.tryToSendStatusReport cfg env
  | .viewsChangeTimer => r.onViewsChangeTimer cfg env
  | .transferringComplete k app pages => r.onTransferringComplete cfg handler env k app pages


end ReplicaImp

end ConcordBft
