import ConcordBft.ReplicaImp.WellFormed

set_option autoImplicit false

/-! # Rules for the functions of a replica

`Does M r x` says that `x`, started in the state `r`, either returns a state that differs from `r` by
effects of the scope `M`, or stops in a state with a `Cause` for the check that failed. A number
outside a window is never a cause, and in the scope `executing` the causes of a plain assertion are
known as well. -/

namespace ConcordBft.ReplicaImp

open Checked SequenceWithActiveWindow

variable {App : Type} (cfg : ReplicaConfig) (handler : RequestsHandler App) (env : Env)
  (M : Scope App) (r : ReplicaImp App)

/-- The active primary cannot propose: the controller asks for a path that the configuration does
    not have, or a request in the queue cannot be put into a PrePrepare. -/
def Blocked : Prop :=
  r.currentViewIsActive = true ∧ r.isCurrentPrimary cfg = true ∧
    ((cfg.cVal = 0 ∧ ∃ s, env.currentFirstPath s = .FAST_WITH_THRESHOLD) ∨
      ∃ m ∈ r.requestsQueueOfPrimary, m.trailing ≠ 0 ∨ sizeForRequests < m.size)

/-- The next number is ready, and the execution of its requests fails. -/
def Unexecutable (e : Failure) : Prop :=
  ∃ pp, readyPrePrepare (r.mainLog.lookup (r.lastExecutedSeqNum + 1)) = some pp ∧
    r.mainLog.Holds (r.lastExecutedSeqNum + 1) ∧
    r.execution.executeRequests cfg handler (r.lastExecutedSeqNum + 1) (r.currentPrimary cfg)
      (r.proofOf (r.lastExecutedSeqNum + 1)) pp.requests = .error e

/-- What is known about the state in which a check fails. -/
def Cause : Failure → Prop
  | .assertion => M.full ∨ Blocked cfg env r ∨ Unexecutable cfg handler r .assertion
  | .primaryBehindExecution => r.currentViewIsActive = true ∧ r.isCurrentPrimary cfg = true ∧
      r.primaryLastUsedSeqNum < r.lastExecutedSeqNum
  | .noFullProof => Unexecutable cfg handler r .noFullProof
  | .outsideActiveWindow => False
  | .notModelled => False

/-- A check that fails after some effects. -/
def Fails (e : Failure) : Prop :=
  ∃ r₁, Effects cfg handler M r r₁ ∧ Cause cfg handler env M r₁ e

def Does (x : Except Failure (ReplicaImp App)) : Prop :=
  Meets (Fails cfg handler env M r) (Effects cfg handler M r) x

variable {cfg handler env M r} {N : Scope App} {r₁ r₂ : ReplicaImp App} {α β : Type}
  {x : Except Failure α} {post : α → Prop} {y : Except Failure (ReplicaImp App)}

theorem Cause.mono (hle : M.Le N) {e : Failure} (h : Cause cfg handler env M r e) :
    Cause cfg handler env N r e := by
  cases e with
  | assertion => exact h.imp_left hle.full
  | _ => exact h

theorem Fails.after (he : Effects cfg handler M r r₁) {e : Failure}
    (h : Fails cfg handler env M r₁ e) : Fails cfg handler env M r e := by
  obtain ⟨r₂, he', hc⟩ := h
  exact ⟨r₂, he.trans he', hc⟩

theorem Fails.mono (hle : M.Le N) {e : Failure} (h : Fails cfg handler env M r e) :
    Fails cfg handler env N r e := by
  obtain ⟨r₁, he, hc⟩ := h
  exact ⟨r₁, he.mono hle, hc.mono hle⟩

theorem fails_assertion (hfull : M.full) : Fails cfg handler env M r .assertion :=
  ⟨r, Effects.refl r, Or.inl hfull⟩

/-- Code that starts after some effects. -/
theorem meets_after (he : Effects cfg handler M r r₁)
    (h : Meets (Fails cfg handler env M r₁) post x) : Meets (Fails cfg handler env M r) post x :=
  h.weaken fun _ => Fails.after he

/-- Code that only asserts, in a scope where that is all there is to know. -/
theorem meets_of_asserts (hfull : M.full) (h : Asserts post x) :
    Meets (Fails cfg handler env M r) post x := by
  refine Meets.weaken h ?_
  rintro e rfl
  exact fails_assertion hfull

theorem meets_assert (hfull : M.full) {expr : Prop} {_ : Decidable expr}
    {f : Unit → Except Failure α} (hf : expr → Meets (Fails cfg handler env M r) post (f ())) :
    Meets (Fails cfg handler env M r) post (Assert expr >>= f) :=
  meets_require_bind (fun _ => fails_assertion hfull) hf

theorem meets_assert_of {expr : Prop} {_ : Decidable expr} (h : expr)
    {f : Unit → Except Failure α} (hf : Meets (Fails cfg handler env M r) post (f ())) :
    Meets (Fails cfg handler env M r) post (Assert expr >>= f) :=
  meets_require_bind (fun hno => absurd h hno) fun _ => hf

theorem meets_get {W R : ℕ} {Item : Type} {w : SequenceWithActiveWindow W R Item} {s : SeqNum}
    (hs : w.Holds s) {f : Item → Except Failure α} {allowed : Failure → Prop}
    (hf : Meets allowed post (f (w.lookup s))) : Meets allowed post (w.get s >>= f) := by
  rw [get_eq hs]
  exact hf

theorem Does.mono (hle : M.Le N) (h : Does cfg handler env M r y) : Does cfg handler env N r y :=
  (Meets.mono h fun _ he => he.mono hle).weaken fun _ => Fails.mono hle

theorem Does.after (he : Effects cfg handler M r r₁) (h : Does cfg handler env M r₁ y) :
    Does cfg handler env M r y :=
  meets_after he (Meets.mono h fun _ he' => he.trans he')

theorem does_pure (he : Effects cfg handler M r r₁) : Does cfg handler env M r (pure r₁) :=
  .ok he

theorem does_refl (r : ReplicaImp App) : Does cfg handler env M r (pure r) :=
  does_pure (Effects.refl r)

theorem Does.bind {f : ReplicaImp App → Except Failure (ReplicaImp App)}
    (h : Does cfg handler env M r y)
    (hf : ∀ r₁, Effects cfg handler M r r₁ → Does cfg handler env M r₁ (f r₁)) :
    Does cfg handler env M r (y >>= f) :=
  Meets.bind h fun r₁ he => Does.after he (hf r₁ he)

theorem does_ite {c : Prop} {_ : Decidable c} {y z : Except Failure (ReplicaImp App)}
    (ht : c → Does cfg handler env M r y) (hf : ¬ c → Does cfg handler env M r z) :
    Does cfg handler env M r (if c then y else z) :=
  meets_ite ht hf

/-- A handler that ignores its message under a condition. -/
theorem does_skip {c : Prop} {_ : Decidable c} (h : ¬ c → Does cfg handler env M r y) :
    Does cfg handler env M r (if c then pure r else y) :=
  does_ite (fun _ => does_refl r) h

/-- A loop over a list in which every round has only effects. -/
theorem does_foldlM {as : List β} {f : ReplicaImp App → β → Except Failure (ReplicaImp App)}
    (h : ∀ b ∈ as, ∀ r₁, Effects cfg handler M r r₁ → Does cfg handler env M r₁ (f r₁ b)) :
    Does cfg handler env M r (as.foldlM f r) := by
  refine meets_foldlM (fun _ r₁ => Effects cfg handler M r r₁) (Effects.refl r) ?_
  intro done b rest r₁ has he
  exact Does.after he (h b (by rw [has]; simp) r₁ he)

/-- A loop that records one action after the other. -/
theorem effects_foldl {as : List β} {f : ReplicaImp App → β → ReplicaImp App}
    (h : ∀ b ∈ as, ∀ r₁, Effects cfg handler M r r₁ → Effects cfg handler M r₁ (f r₁ b)) :
    Effects cfg handler M r (as.foldl f r) := by
  suffices hall : ∀ r₁, Effects cfg handler M r r₁ → Effects cfg handler M r (as.foldl f r₁) from
    hall r (Effects.refl r)
  induction as with
  | nil => exact fun _ he => he
  | cons b rest ih =>
    intro r₁ he
    exact ih (fun b' hb' => h b' (List.mem_cons_of_mem b hb')) (f r₁ b)
      (he.trans (h b List.mem_cons_self r₁ he))

end ConcordBft.ReplicaImp
