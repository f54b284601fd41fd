import ConcordBft.ReplicaImp.Effects.StatusReports
import ConcordBft.ReplicaImp.Events

set_option autoImplicit false

/-! # Runs of a replica and their effects

`Scope.ofEvent` is what one event may bring. Every step has only effects of that scope, so what the
effects keep holds in every state that a run reaches. -/

namespace ConcordBft

open Checked Machine

variable {App : Type}

/-! ## A small application -/

/-- An application without state that answers every request by one byte. -/
def constantReply : RequestsHandler Unit where
  execute := fun _ _ => { app := (), error := 0, outReply := [1], outActualReplySize := 1 }

namespace ReplicaImp

/-! ## Runs -/

/-- An event, with the environment in which it is handled. -/
abbrev Input (App : Type) := Env × Event App

/-- A replica that starts for the first time. -/
def start (app : App) (replyBuffer : Bytes) : ReplicaImp App :=
  { execution := { app := app, replyBuffer := replyBuffer } }

section

variable (cfg : ReplicaConfig) (handler : RequestsHandler App) (r : ReplicaImp App)

/-- The next state, if no check fails. -/
def next (i : Input App) : Option (ReplicaImp App) :=
  (r.step cfg handler i.1 i.2).toOption

/-- A run whose inputs all meet the guard `ok`. -/
abbrev RunsTo (ok : ReplicaImp App → Input App → Prop) : ReplicaImp App → ReplicaImp App → Prop :=
  Reaches (next cfg handler) ok

/-- A state that some run of a new replica reaches. -/
def Reachable : Prop :=
  ∃ app replyBuffer, RunsTo cfg handler (fun _ _ => True) (start app replyBuffer) r

/-! ## The scope of an event -/

/-- The states in which a step asks the manager of the views whether the view can be entered. -/
inductive AsksToEnter : Event App → ReplicaImp App → Prop
  | viewChange {m : ViewChangeMsg} {r₁ : ReplicaImp App}
      (h : r.addViewChangeMsg cfg m = .ok (r₁, true)) :
      AsksToEnter (.receive (.viewChange m)) r₁
  | newView {m : NewViewMsg} {r₁ : ReplicaImp App} (h : r.addNewViewMsg cfg m = .ok (r₁, true)) :
      AsksToEnter (.receive (.newView m)) r₁
  | prePrepare {m : PrePrepareMsg} {r₁ : ReplicaImp App}
      (h : r.addMissingPrePrepare m = .ok (r₁, true)) :
      AsksToEnter (.receive (.prePrepare m)) r₁

/-- The view is entered in the state `r₁` of the step, and `vm` is the manager after that. -/
def EntersIn (e : Event App) (r₁ : ReplicaImp App) (vm : ViewsManager) : Prop :=
  AsksToEnter cfg r e r₁ ∧ ∃ pps, r₁.viewsManager.tryToEnterView cfg r₁.curView
    r₁.lastStableSeqNum r₁.lastExecutedSeqNum = .ok (vm, some pps)

/-- What one event may bring. -/
def Scope.ofEvent (e : Event App) : Scope App where
  full := True
  moves := True
  executes := True
  receives := fun m => m.ToActualMsgType cfg = true ∧ e = .receive (.viewChange m)
  requests := fun m => m.size ≤ maxExternalMessageSize ∧
    ∃ senderId, e = .receive (.clientRequest senderId m)
  enters := EntersIn cfg r e
  transfers := fun n => ∃ k app pages, e = .transferringComplete k app pages ∧
    n = k * checkpointWindowSize
  fetches := fun app pages => ∃ k, e = .transferringComplete k app pages
  answers := fun s => ∃ m, e = .receive (.reqMissingData m) ∧ m.seqNumber = s

end

variable {cfg : ReplicaConfig} {handler : RequestsHandler App} {env : Env} {r r' : ReplicaImp App}

theorem onMessage_does (hw : WellFormed cfg r) {m : Msg} (hm : m.ToActualMsgType cfg = true) :
    Does cfg handler env (Scope.ofEvent cfg r (.receive m)) r (r.onMessage cfg handler env m) := by
  have hfull : (Scope.ofEvent cfg r (.receive m)).full := trivial
  have hmoves : (Scope.ofEvent cfg r (.receive m)).moves := trivial
  have hexec : (Scope.ofEvent cfg r (.receive m)).executes := trivial
  have henters : ∀ r₁, AsksToEnter cfg r (.receive m) r₁ →
      MayEnter cfg (Scope.ofEvent cfg r (.receive m)) r₁ := fun r₁ hasks vm pps h => ⟨hasks, pps, h⟩
  cases m with
  | clientRequest senderId m =>
    exact onClientRequestMsg_does hfull hw senderId ⟨of_decide_eq_true hm, senderId, rfl⟩
  | clientReply m => exact does_refl r
  | prePrepare m => exact onPrePrepareMsg_does hfull hw hm fun r₁ h => henters r₁ (.prePrepare h)
  | startSlowCommit m => exact onStartSlowCommitMsg_does hfull hw m
  | partialCommitProof m => exact onPartialCommitProofMsg_does hfull hw m
  | fullCommitProof m => exact onFullCommitProofMsg_does hfull hmoves hexec hw m
  | preparePartial m => exact onPreparePartialMsg_does hfull hw m
  | prepareFull m => exact onPrepareFullMsg_does hfull hw m
  | commitPartial m => exact onCommitPartialMsg_does hfull hw m
  | commitFull m => exact onCommitFullMsg_does hfull hw m
  | checkpoint m => exact onCheckpointMsg_does hfull hmoves hw hm
  | viewChange m =>
    exact onViewChangeMsg_does hfull hw ⟨hm, rfl⟩ fun r₁ h => henters r₁ (.viewChange h)
  | newView m => exact onNewViewMsg_does hfull hw fun r₁ h => henters r₁ (.newView h)
  | reqMissingData m => exact onReqMissingDataMsg_does hw ⟨m, rfl, rfl⟩
  | replicaStatus m => exact onReplicaStatusMsg_does hfull hw

/-- **Every step has only effects of the scope of its event**, and every check that fails has a
    cause. -/
theorem step_does (hw : WellFormed cfg r) (e : Event App) :
    Does cfg handler env (Scope.ofEvent cfg r e) r (r.step cfg handler env e) := by
  have hfull : (Scope.ofEvent cfg r e).full := trivial
  have hmoves : (Scope.ofEvent cfg r e).moves := trivial
  have hexec : (Scope.ofEvent cfg r e).executes := trivial
  cases e with
  | receive m =>
    exact does_ite (fun h => onMessage_does hw h.2) fun _ => does_refl r
  | fullProofCreated s sig => exact onFullProofCreated_does hfull hmoves hexec hw s sig
  | prepareJobResult s result => exact onPrepareJobResult_does hfull hw s result
  | commitJobResult s result => exact onCommitJobResult_does hfull hmoves hexec hw s result
  | slowPathTimer => exact tryToStartSlowPaths_does hfull hmoves hw
  | infoRequestTimer => exact tryToAskForMissingInfo_does hfull hw
  | statusReportTimer => exact (tryToSendStatusReport_sends hw).does
  | viewsChangeTimer => exact onViewsChangeTimer_does hfull hw
  | transferringComplete k app pages =>
    refine does_skip fun _ => ?_
    have hfetch : Effect cfg handler (Scope.ofEvent cfg r (.transferringComplete k app pages)) r
        (r.withTransferredState app pages) := .fetch app pages hfull ⟨k, rfl⟩
    exact Does.after hfetch.effects (onTransferringCompleteImp_does hfull hmoves hexec
      (hfetch.wellFormed hw) ⟨k, app, pages, rfl, rfl⟩)

/-! ## What every run keeps -/

theorem window_nonneg : (0 : SeqNum) ≤ 0 + kWorkWindowSize := by decide

theorem start_wellFormed (app : App) (replyBuffer : Bytes) :
    WellFormed cfg (start app replyBuffer) where
  stable_mod := rfl
  stable_nonneg := le_refl 0
  stable_le := le_refl 0
  exec_le := window_nonneg
  mainLog_begin := rfl
  checkpointsLog_begin := rfl
  strict_ge := le_refl 0
  transferred_le := window_nonneg
  used_ge := le_refl 0
  used_le := window_nonneg
  slots := fun s _ => SeqNumInfo.inv_empty
  fits := fun s pp _ h => absurd h (by simp [start])
  inactive := fun h => absurd h (by simp [start, currentViewIsActive, ViewsManager.viewIsActive,
    ViewsManager.inView])
  primary := fun _ _ => ⟨le_refl 0, fun _ _ _ => rfl⟩
  filled := fun _ s hlo hhi => by
    dsimp only [start] at hlo hhi
    lia
  checkpoints := fun n _ h => absurd h (by
    show ¬ (false = true ∨ false = true)
    simp)
  views := ViewsManager.wf_start
  within := fun h => absurd h (by simp [start])
  own := fun m h => absurd h (by simp [start, ViewsManager.getMyLatestViewChangeMsg])
  own_none := ⟨fun _ => rfl, fun _ => rfl⟩
  view_nonneg := le_refl 0

theorem of_next {i : Input App} (h : next cfg handler r i = some r') :
    r.step cfg handler i.1 i.2 = .ok r' :=
  eq_ok_of_toOption h

/-- A step that is taken has only effects of the scope of its event. -/
theorem effects_of_next (hw : WellFormed cfg r) {i : Input App}
    (h : next cfg handler r i = some r') :
    Effects cfg handler (Scope.ofEvent cfg r i.2) r r' :=
  Meets.of_ok (step_does hw i.2) (of_next h)

/-- **Every state that a run reaches is well formed.** -/
theorem RunsTo.wellFormed {ok : ReplicaImp App → Input App → Prop} (hw : WellFormed cfg r)
    (h : RunsTo cfg handler ok r r') : WellFormed cfg r' :=
  Reaches.invariant _ hw (fun _ _ _ hw₁ _ hnext => (effects_of_next hw₁ hnext).wellFormed hw₁) h

theorem Reachable.wellFormed (h : Reachable cfg handler r) : WellFormed cfg r := by
  obtain ⟨app, replyBuffer, hruns⟩ := h
  exact hruns.wellFormed (start_wellFormed app replyBuffer)

/-- A list of inputs that can be taken from the start reaches its last state. -/
theorem exists_reachable (app : App) (replyBuffer : Bytes) {P : ReplicaImp App → Prop}
    [DecidablePred P] (inputs : List (Input App))
    (h : (runSteps (next cfg handler) (start app replyBuffer) inputs).any (fun r => decide (P r)) =
      true) : ∃ r, Reachable cfg handler r ∧ P r := by
  obtain ⟨r, hr, hP⟩ := (Option.any_eq_true _ _).1 h
  exact ⟨r, ⟨app, replyBuffer, reaches_of_runSteps _ inputs hr⟩, of_decide_eq_true hP⟩

/-! ## Promises -/

open List

/-- The view of a vote, an entry to a view or a view change message. -/
def viewOf : Action → Option ViewNum
  | .accept v _ _ | .sign _ v _ _ | .enterView v _ _ _ => some v
  | .send _ (.viewChange m) | .sendToAllOtherReplicas (.viewChange m) => some m.newView
  | _ => none

/-- The views of the history, newest first. -/
def views (r : ReplicaImp App) : List ViewNum := r.trace.filterMap viewOf

/-- Views do not fall, and the own view change message is for the current view. -/
def InOrder (cfg : ReplicaConfig) (r : ReplicaImp App) : Prop :=
  r.views.Pairwise (· ≥ ·) ∧ (∀ v ∈ r.views, v ≤ r.curView) ∧
    ∀ m, r.viewsManager.getMyLatestViewChangeMsg cfg = some m → m.newView = r.curView

/-- What is added has the view in which the replica is then. -/
theorem InOrder.add (h : InOrder cfg r) (new : List Action) (htrace : r'.trace = new ++ r.trace)
    (hle : r.curView ≤ r'.curView) (hnew : ∀ v ∈ new.filterMap viewOf, v = r'.curView)
    (hown : ∀ m, r'.viewsManager.getMyLatestViewChangeMsg cfg = some m → m.newView = r'.curView) :
    InOrder cfg r' := by
  have hold : ∀ v ∈ r.views, v ≤ r'.curView := fun v hv => (h.2.1 v hv).trans hle
  unfold InOrder
  rw [views, htrace, filterMap_append]
  refine ⟨pairwise_append.2 ⟨?_, h.1, fun v hv => hnew v hv ▸ hold⟩, fun v hv => ?_, hown⟩
  · refine pairwise_of_forall_mem_list fun v hv w hw => ?_
    rw [hnew v hv, hnew w hw]
  · exact (mem_append.1 hv).elim (fun hv => (hnew v hv).le) (hold v)

theorem Effect.inOrder {M : Scope App} (h : InOrder cfg r) (he : Effect cfg handler M r r') :
    InOrder cfg r' := by
  have hown := h.2.2
  cases he with
  | record a ha =>
    refine h.add [a] rfl le_rfl ?_ hown
    cases a with
    | sign => exact forall_mem_singleton.2 ha.1
    | send dest m | sendToAllOtherReplicas m =>
      cases m with
      | viewChange m => exact forall_mem_singleton.2 (hown m ha)
      | _ => exact nofun
    | markCheckpoint => exact nofun
    | _ => exact ha.elim
  | accept => exact h.add [_] rfl le_rfl (forall_mem_singleton.2 rfl) hown
  | views vm _ _ hquiet _ => exact ⟨h.1, h.2.1, fun m hm => hown m (hquiet.own.symm.trans hm)⟩
  | leave v m vm log _ hl =>
    refine h.add [_] rfl hl.view_lt.le (forall_mem_singleton.2 hl.newView_eq) ?_
    exact fun m' hm' => Option.some.inj (hl.own.symm.trans hm') ▸ hl.newView_eq
  | enter vm pps log new _ _ hen =>
    obtain ⟨last, hcounters, -⟩ := counters_of_entry hen.enters
    rw [enterWith, hcounters]
    refine h.add new rfl le_rfl (fun v hv => ?_) fun m hm => ?_
    · obtain ⟨a, ha, hva⟩ := mem_filterMap.1 hv
      cases hen.actions a ha <;> cases hva <;> rfl
    · exact hown m (hen.enters.own.symm.trans hm)
  | _ => exact h

/-- **A replica keeps the promises of its view change messages**: after one for a view, it votes in
    no lower view, enters none and sends no such message for one. -/
theorem views_sorted (h : Reachable cfg handler r) : r.views.Pairwise (· ≥ ·) := by
  obtain ⟨app, replyBuffer, hruns⟩ := h
  refine (Reaches.invariant (fun r => WellFormed cfg r ∧ InOrder cfg r)
    ⟨start_wellFormed app replyBuffer, .nil, nofun, nofun⟩ ?_ hruns).2.1
  rintro r i r' ⟨hw, hi⟩ - hnext
  have heff := effects_of_next hw hnext
  exact ⟨heff.wellFormed hw, heff.invariant (fun _ _ hI he => he.inOrder hI) hi⟩

/-- Replica 2 votes in view 0 and leaves it. -/
theorem views_of_leaving : ∃ r, Reachable (fourReplicas 2) constantReply r ∧
    r.views = [1, 0, 0] ∧ r.views.Pairwise (· ≥ ·) := by
  refine (exists_reachable (P := (·.views = [1, 0, 0])) () []
    [({}, .receive (.prePrepare ⟨0, 0, 1, .SLOW, false, 2, [⟨4, 1, false, [], 0⟩]⟩)),
      ({}, .receive (.viewChange ⟨0, 1, 0, []⟩)), ({}, .receive (.viewChange ⟨3, 1, 0, []⟩))]
    ?_).imp fun r h => ⟨h.1, h.2, views_sorted h.1⟩
  decide +kernel

end ReplicaImp

end ConcordBft
