import ConcordBft.MsgsCertificate
import ConcordBft.Lib.Machine
import Mathlib.Data.Finset.Card

set_option autoImplicit false

/-! # When a complete certificate is backed by a quorum

A certificate is followed over its whole run: messages of any replica in any order, forced
completions and resets. `CertificateRun` adds to the certificate what the run did since the last
reset: every message it was given, and whether the certificate became complete by a forced call.

The cached size of the own class is right as long as the own message opens its class. When a peer
was faster, `addSelfMsg` counts the own message twice, and the certificate is complete one message
too early. `Inv` is the invariant of the runs in which this does no harm. -/

namespace ConcordBft

open Machine MsgsCertificate List

variable {T : Type}

/-! ## Runs of a certificate -/

/-- The calls on a certificate. -/
inductive CertificateStep (T : Type) where
  | addMsg (msg : T) (replicaId : ReplicaId)
  | tryToMarkComplete
  | resetAndFree

/-- A certificate together with the messages it was given since the last reset and the mark that it
    was completed by a call of `tryToMarkComplete` from outside. -/
structure CertificateRun (T : Type) where
  cert : MsgsCertificate T := {}
  received : List (ReplicaId × T) := []
  forced : Bool := false

namespace CertificateRun

variable (p : CertificateParams T) (r : CertificateRun T)

/-- One call. -/
def step : CertificateStep T → CertificateRun T
  | .addMsg msg replicaId =>
    { r with
      cert := (r.cert.addMsg p msg replicaId).2
      received := r.received ++ [(replicaId, msg)] }
  | .tryToMarkComplete =>
    { r with
      cert := r.cert.tryToMarkComplete p
      forced := r.forced || (!r.cert.complete && (r.cert.tryToMarkComplete p).complete) }
  | .resetAndFree => { cert := r.cert.resetAndFree }

/-- A call is always possible. -/
def next (a : CertificateStep T) : Option (CertificateRun T) := some (r.step p a)

end CertificateRun

variable (p : CertificateParams T) (r : CertificateRun T)

/-- How many of the messages are equivalent to `own`. -/
def countEquivalent (own : T) (msgs : List (ReplicaId × T)) : ℕ :=
  (msgs.filter fun m => p.equivalent own m.2).length

/-- The distinct replicas among the senders of messages equivalent to `own`. -/
def sendersOfEquivalent (own : T) (msgs : List (ReplicaId × T)) : Finset ReplicaId :=
  ((msgs.filter fun m => p.equivalent own m.2).map Prod.fst).toFinset

/-- `required` distinct replicas, the replica itself among them, have sent a message equivalent to
    the replica's own one. -/
def CertificateRun.HasQuorum : Prop :=
  ∃ own, r.cert.selfMsg p = some own ∧ p.selfId ∈ sendersOfEquivalent p own r.received ∧
    p.required ≤ (sendersOfEquivalent p own r.received).card

/-- The step does not let the own message be counted twice to any effect: when it adds the own
    message, either no equivalent message is there yet, or so many are that the own message rightly
    completes the certificate. -/
def OwnMsgInTime : CertificateStep T → Prop
  | .addMsg msg replicaId =>
    replicaId = p.selfId →
      countEquivalent p msg r.cert.msgsFromReplicas = 0 ∨
      p.required ≤ countEquivalent p msg r.cert.msgsFromReplicas + 1
  | _ => True

/-! ## Counting equivalent messages -/

/-- The assumptions on the template arguments: the own message is trusted and required, and
    `equivalent` is an equivalence relation. -/
structure CertificateParams.OwnClassCounts (p : CertificateParams T) : Prop where
  selfTrust : p.SelfTrust = true
  selfIsRequired : p.SelfIsRequired = true
  refl : ∀ a, p.equivalent a a = true
  symm : ∀ a b, p.equivalent a b = true → p.equivalent b a = true
  trans : ∀ a b c, p.equivalent a b = true → p.equivalent b c = true → p.equivalent a c = true

theorem mem_of_lookup_eq_some {msgs : List (ReplicaId × T)} {id : ReplicaId} {m : T}
    (h : msgs.lookup id = some m) : (id, m) ∈ msgs := by
  obtain ⟨pre, post, rfl, _⟩ := lookup_eq_some_iff.1 h
  simp

theorem one_le_countEquivalent {p : CertificateParams T} {own m : T} {id : ReplicaId}
    {msgs : List (ReplicaId × T)} (hmem : (id, m) ∈ msgs) (h : p.equivalent own m = true) :
    1 ≤ countEquivalent p own msgs := by
  have : (id, m) ∈ msgs.filter fun m => p.equivalent own m.2 := mem_filter.2 ⟨hmem, h⟩
  exact length_pos_of_mem this

/-- With one message per replica, counting messages counts replicas. -/
theorem countEquivalent_le_card {p : CertificateParams T} {own : T}
    {msgs received : List (ReplicaId × T)} (hnd : (msgs.map Prod.fst).Nodup)
    (hsub : ∀ m ∈ msgs, m ∈ received) :
    countEquivalent p own msgs ≤ (sendersOfEquivalent p own received).card := by
  have hnd' : ((msgs.filter fun m => p.equivalent own m.2).map Prod.fst).Nodup :=
    hnd.sublist ((filter_sublist).map _)
  have hcard : countEquivalent p own msgs = (sendersOfEquivalent p own msgs).card := by
    rw [sendersOfEquivalent, toFinset_card_of_nodup hnd', length_map, countEquivalent]
  rw [hcard]
  refine Finset.card_le_card fun id hid => ?_
  simp only [sendersOfEquivalent, mem_toFinset, mem_map, mem_filter] at hid ⊢
  obtain ⟨m, ⟨hm, heq⟩, rfl⟩ := hid
  exact ⟨m, ⟨hsub m hm, heq⟩, rfl⟩

/-! ## What the operations leave unchanged -/

namespace MsgsCertificate

variable (p : CertificateParams T) (c : MsgsCertificate T)

@[simp] theorem tryToMarkComplete_msgs :
    (c.tryToMarkComplete p).msgsFromReplicas = c.msgsFromReplicas := by
  unfold tryToMarkComplete
  split <;> rfl

@[simp] theorem tryToMarkComplete_classes : (c.tryToMarkComplete p).msgClasses = c.msgClasses := by
  unfold tryToMarkComplete
  split <;> rfl

@[simp] theorem tryToMarkComplete_trusted :
    (c.tryToMarkComplete p).hasTrustedSelfClass = c.hasTrustedSelfClass := by
  unfold tryToMarkComplete
  split <;> rfl

@[simp] theorem tryToMarkComplete_bestClass : (c.tryToMarkComplete p).bestClass = c.bestClass := by
  unfold tryToMarkComplete
  split <;> rfl

@[simp] theorem tryToMarkComplete_sizeOfBestClass :
    (c.tryToMarkComplete p).sizeOfBestClass = c.sizeOfBestClass := by
  unfold tryToMarkComplete
  split <;> rfl

/-- Without the own message a certificate that needs it cannot be marked. -/
theorem tryToMarkComplete_eq_self (hreq : p.SelfIsRequired = true)
    (hself : c.hasMsgFromReplica p.selfId = false) : c.tryToMarkComplete p = c := by
  simp [tryToMarkComplete, hreq, hself]

@[simp] theorem updateBestClass_msgs (i : ℕ) :
    (c.updateBestClass p i).msgsFromReplicas = c.msgsFromReplicas := by
  unfold updateBestClass
  dsimp only
  split_ifs <;> simp

@[simp] theorem updateBestClass_classes (i : ℕ) :
    (c.updateBestClass p i).msgClasses = c.msgClasses := by
  unfold updateBestClass
  dsimp only
  split_ifs <;> simp

@[simp] theorem updateBestClass_trusted (i : ℕ) :
    (c.updateBestClass p i).hasTrustedSelfClass = c.hasTrustedSelfClass := by
  unfold updateBestClass
  dsimp only
  split_ifs <;> simp

/-- Joining a class marks nothing while the own message is missing. -/
theorem updateBestClass_complete (i : ℕ) (hreq : p.SelfIsRequired = true)
    (hself : c.hasMsgFromReplica p.selfId = false) :
    (c.updateBestClass p i).complete = c.complete := by
  unfold updateBestClass
  have hself' : ∀ b n, ({ c with bestClass := b, sizeOfBestClass := n } :
      MsgsCertificate T).hasMsgFromReplica p.selfId = false := fun _ _ => hself
  split_ifs <;> simp [tryToMarkComplete_eq_self, hreq, hself']

@[simp] theorem createClass_msgs (id : ReplicaId) :
    (c.createClass p id).msgsFromReplicas = c.msgsFromReplicas := by
  unfold createClass
  dsimp only
  split_ifs <;> rfl

@[simp] theorem createClass_trusted (id : ReplicaId) :
    (c.createClass p id).hasTrustedSelfClass = c.hasTrustedSelfClass := by
  unfold createClass
  dsimp only
  split_ifs <;> rfl

@[simp] theorem createClass_complete (id : ReplicaId) :
    (c.createClass p id).complete = c.complete := by
  unfold createClass
  dsimp only
  split_ifs <;> rfl

theorem createClass_classes (id : ReplicaId) :
    (c.createClass p id).msgClasses = c.msgClasses ∨
      (c.createClass p id).msgClasses = c.msgClasses ++ [⟨1, id⟩] := by
  unfold createClass
  dsimp only
  split_ifs <;> simp

@[simp] theorem incClass_msgs (i : ℕ) : (c.incClass i).msgsFromReplicas = c.msgsFromReplicas := rfl

@[simp] theorem incClass_trusted (i : ℕ) :
    (c.incClass i).hasTrustedSelfClass = c.hasTrustedSelfClass := rfl

@[simp] theorem addPeerMsg_msgs (msg : T) (id : ReplicaId) :
    (c.addPeerMsg p msg id).msgsFromReplicas = c.msgsFromReplicas := by
  unfold addPeerMsg
  split
  · split
    · split_ifs <;> simp
    · rfl
  · split <;> simp

@[simp] theorem addSelfMsg_msgs (msg : T) :
    (c.addSelfMsg p msg).msgsFromReplicas = c.msgsFromReplicas := by
  unfold addSelfMsg
  dsimp only
  split_ifs <;> simp

theorem addMsg_of_hasMsg (msg : T) (id : ReplicaId) (h : c.hasMsgFromReplica id = true) :
    (c.addMsg p msg id).2 = c := by
  simp [addMsg, h]

/-- A message of a replica that has sent none yet is stored. -/
theorem addMsg_msgs (msg : T) (id : ReplicaId) (h : c.hasMsgFromReplica id = false) :
    (c.addMsg p msg id).2.msgsFromReplicas = c.msgsFromReplicas ++ [(id, msg)] := by
  simp only [addMsg, h, Bool.false_eq_true, if_false]
  split_ifs <;> simp

end MsgsCertificate

/-! ## The counters before and after the own message -/

/-- Before the own message: every class counts at most the messages equivalent to its
    representative. -/
structure ClassesCount (p : CertificateParams T) (c : MsgsCertificate T) : Prop where
  notComplete : c.complete = false
  notTrusted : c.hasTrustedSelfClass = false
  size_le : ∀ (i : ℕ) (cls : MsgClassInfo), c.msgClasses[i]? = some cls →
    ∃ rep, c.msgsFromReplicas.lookup cls.representativeReplica = some rep ∧
      cls.size ≤ countEquivalent p rep c.msgsFromReplicas

/-- After the own message: the only class is the own one, and it counts no more than the messages
    equivalent to the own one unless there are enough of them anyway. -/
structure OwnClassCount (p : CertificateParams T) (own : T) (c : MsgsCertificate T) : Prop where
  trusted : c.hasTrustedSelfClass = true
  classes : c.msgClasses = [⟨c.sizeOfBestClass, p.selfId⟩]
  best : c.bestClass = some 0
  size_le : c.sizeOfBestClass ≤ countEquivalent p own c.msgsFromReplicas ∨
    p.required ≤ countEquivalent p own c.msgsFromReplicas

variable {p : CertificateParams T} {c : MsgsCertificate T} {msg own : T} {id : ReplicaId}

/-- The certificate after `msgsFromReplicas[replicaId] = msg`, before any counting. -/
def MsgsCertificate.store (c : MsgsCertificate T) (id : ReplicaId) (msg : T) : MsgsCertificate T :=
  { c with msgsFromReplicas := c.msgsFromReplicas ++ [(id, msg)] }

theorem MsgsCertificate.addMsg_eq (p : CertificateParams T) (msg : T)
    (hnew : c.hasMsgFromReplica id = false) :
    (c.addMsg p msg id).2 =
      if c.complete then c.store id msg
      else if p.SelfTrust && id == p.selfId then (c.store id msg).addSelfMsg p msg
      else (c.store id msg).addPeerMsg p msg id := by
  simp only [addMsg, hnew, Bool.false_eq_true, if_false]
  split_ifs <;> rfl

open MsgsCertificate

theorem lookup_store_of_some (id : ReplicaId) (msg : T) {i : ReplicaId} {m : T}
    (h : c.msgsFromReplicas.lookup i = some m) :
    (c.store id msg).msgsFromReplicas.lookup i = some m := by
  simp [store, lookup_append, h]

theorem lookup_store_self (msg : T) (hnew : c.hasMsgFromReplica id = false) :
    (c.store id msg).msgsFromReplicas.lookup id = some msg := by
  have hnone : c.msgsFromReplicas.lookup id = none := by
    simpa [hasMsgFromReplica] using hnew
  simp [store, lookup_append, hnone]

theorem countEquivalent_store (p : CertificateParams T) (c : MsgsCertificate T) (id : ReplicaId)
    (msg own : T) :
    countEquivalent p own (c.store id msg).msgsFromReplicas =
      countEquivalent p own c.msgsFromReplicas + if p.equivalent own msg then 1 else 0 := by
  unfold countEquivalent store
  by_cases h : p.equivalent own msg = true <;> simp [h]

theorem ClassesCount.store (h : ClassesCount p c) : ClassesCount p (c.store id msg) := by
  refine ⟨h.notComplete, h.notTrusted, fun i cls hi => ?_⟩
  obtain ⟨rep, hrep, hle⟩ := h.size_le i cls hi
  refine ⟨rep, lookup_store_of_some id msg hrep, ?_⟩
  rw [countEquivalent_store]
  omega

/-- A peer's message counted into the class it belongs to: the class grows by one, and so does the
    number of messages equivalent to its representative. -/
theorem ClassesCount.join (h : ClassesCount p c) {i : ℕ}
    (hfind : (c.store id msg).findClass p msg = some i) :
    ClassesCount p ((c.store id msg).incClass i) := by
  obtain ⟨hlt, hbel, _⟩ := findIdx?_eq_some_iff_getElem.1 hfind
  refine ⟨h.notComplete, h.notTrusted, fun j cls hj => ?_⟩
  simp only [incClass, getElem?_modify, Option.map_eq_map, Option.map_eq_some_iff] at hj
  obtain ⟨cls0, hcls0, rfl⟩ := hj
  obtain ⟨rep, hrep, hle⟩ := h.size_le j cls0 hcls0
  have hrep' := lookup_store_of_some id msg hrep
  by_cases hij : i = j
  · subst hij
    rw [if_pos rfl]
    refine ⟨rep, hrep', ?_⟩
    have hget : (c.store id msg).msgClasses[i] = cls0 := by
      rw [getElem?_eq_getElem hlt] at hcls0
      exact Option.some.inj hcls0
    rw [hget, belongsTo, hrep'] at hbel
    have := countEquivalent_store p c id msg rep
    rw [if_pos hbel] at this
    simp only [incClass_msgs]
    omega
  · rw [if_neg hij]
    refine ⟨rep, hrep', ?_⟩
    simp only [incClass_msgs, countEquivalent_store]
    omega

section

variable (hp : p.OwnClassCounts) (h : ClassesCount p c) (hnew : c.hasMsgFromReplica id = false)
include hp h hnew

theorem ClassesCount.create : ClassesCount p ((c.store id msg).createClass p id) := by
  have hs : ClassesCount p (c.store id msg) := h.store
  refine ⟨by simp [hs.notComplete], by simp [hs.notTrusted], fun i cls hi => ?_⟩
  rw [createClass_msgs]
  rcases (c.store id msg).createClass_classes p id with hc | hc <;> rw [hc] at hi
  · exact hs.size_le i cls hi
  · rw [getElem?_append] at hi
    split_ifs at hi
    · exact hs.size_le i cls hi
    · obtain rfl : cls = ⟨1, id⟩ := by
        rw [getElem?_singleton] at hi
        split_ifs at hi
        exact (Option.some.inj hi).symm
      refine ⟨msg, lookup_store_self msg hnew, ?_⟩
      exact one_le_countEquivalent (mem_of_lookup_eq_some (lookup_store_self msg hnew)) (hp.refl msg)

theorem ClassesCount.addPeerMsg (hself : c.hasMsgFromReplica p.selfId = false) (hid : id ≠ p.selfId) :
    ClassesCount p ((c.store id msg).addPeerMsg p msg id) := by
  have hself' : (c.store id msg).hasMsgFromReplica p.selfId = false := by
    simp only [MsgsCertificate.hasMsgFromReplica] at hself ⊢
    simp [MsgsCertificate.store, lookup_append, lookup_cons, hself,
      beq_eq_false_iff_ne.2 (Ne.symm hid)]
  unfold MsgsCertificate.addPeerMsg
  rw [if_neg (by simp [h.store.notTrusted])]
  split
  · rename_i i hfind
    have hj := h.join hfind
    -- the own message is missing, so the certificate cannot become complete here
    refine ⟨?_, ?_, ?_⟩
    · rw [MsgsCertificate.updateBestClass_complete p ((c.store id msg).incClass i) i
        hp.selfIsRequired hself']
      exact hj.notComplete
    · rw [MsgsCertificate.updateBestClass_trusted]
      exact hj.notTrusted
    · rw [MsgsCertificate.updateBestClass_classes, MsgsCertificate.updateBestClass_msgs]
      exact hj.size_le
  · exact h.create hp hnew

end

/-- The own message, in time: the new class counts what is there. -/
theorem OwnClassCount.addSelfMsg (hp : p.OwnClassCounts) (h : ClassesCount p c)
    (htime : countEquivalent p msg c.msgsFromReplicas = 0 ∨
      p.required ≤ countEquivalent p msg c.msgsFromReplicas + 1) :
    OwnClassCount p msg ((c.store p.selfId msg).addSelfMsg p msg) ∧
      (((c.store p.selfId msg).addSelfMsg p msg).complete = true →
        p.required ≤ countEquivalent p msg (c.store p.selfId msg).msgsFromReplicas) := by
  have hcount := countEquivalent_store p c p.selfId msg msg
  rw [if_pos (hp.refl msg)] at hcount
  unfold MsgsCertificate.addSelfMsg
  dsimp only
  -- the size of the new class is right, or enough messages are there anyway
  have hsize : (c.store p.selfId msg).selfClassSize p msg ≤
        countEquivalent p msg (c.store p.selfId msg).msgsFromReplicas ∨
      p.required ≤ countEquivalent p msg (c.store p.selfId msg).msgsFromReplicas := by
    unfold selfClassSize
    split
    · left; omega
    · rename_i i hfind
      -- the class holds a message equivalent to the own one
      obtain ⟨hlt, hbel, _⟩ := findIdx?_eq_some_iff_getElem.1 hfind
      obtain ⟨rep, hrep, _⟩ := h.size_le i _ (getElem?_eq_getElem hlt)
      simp only [belongsTo, lookup_store_of_some p.selfId msg hrep] at hbel
      have := one_le_countEquivalent (mem_of_lookup_eq_some hrep) (hp.symm _ _ hbel)
      right; omega
  split_ifs with hreq
  · refine ⟨⟨by simp, by simp, by simp, by simpa using hsize⟩, fun _ => ?_⟩
    rcases hsize with hle | hle <;> omega
  · refine ⟨⟨rfl, rfl, rfl, hsize⟩, fun hcomp => ?_⟩
    exact absurd hcomp (by simp [store, h.notComplete])

theorem OwnClassCount.addPeerMsg (h : OwnClassCount p own c)
    (hown : c.msgsFromReplicas.lookup p.selfId = some own) (hc : c.complete = false) :
    OwnClassCount p own ((c.store id msg).addPeerMsg p msg id) ∧
      (((c.store id msg).addPeerMsg p msg id).complete = true →
        p.required ≤ countEquivalent p own (c.store id msg).msgsFromReplicas) := by
  have hcount := countEquivalent_store p c id msg own
  have hcls : (c.store id msg).msgClasses = [⟨c.sizeOfBestClass, p.selfId⟩] := h.classes
  have hbel : (c.store id msg).belongsTo p msg ⟨c.sizeOfBestClass, p.selfId⟩ =
      p.equivalent own msg := by
    simp [belongsTo, lookup_store_of_some id msg hown]
  unfold MsgsCertificate.addPeerMsg
  rw [if_pos (show (c.store id msg).hasTrustedSelfClass = true from h.trusted), hcls]
  simp only [getElem?_cons_zero, hbel]
  by_cases heq : p.equivalent own msg = true
  · rw [if_pos heq] at hcount ⊢
    have hinc : ((c.store id msg).incClass 0).msgClasses = [⟨c.sizeOfBestClass + 1, p.selfId⟩] := by
      simp [incClass, hcls]
    have hsz : ((c.store id msg).incClass 0).classSize 0 = c.sizeOfBestClass + 1 := by
      simp [classSize, hinc]
    have hbest : ((c.store id msg).incClass 0).sizeOfBestClass < c.sizeOfBestClass + 1 :=
      Nat.lt_succ_self _
    have hle : c.sizeOfBestClass + 1 ≤ countEquivalent p own (c.store id msg).msgsFromReplicas ∨
        p.required ≤ countEquivalent p own (c.store id msg).msgsFromReplicas := by
      rcases h.size_le with h1 | h1
      · left; omega
      · right; omega
    unfold updateBestClass
    simp only [hsz, hbest, if_true]
    split_ifs with hreq
    · refine ⟨⟨by simpa [store] using h.trusted, by simpa using hinc, by simp,
        by simpa using hle⟩, fun _ => ?_⟩
      rcases hle with h1 | h1 <;> omega
    · exact ⟨⟨h.trusted, hinc, rfl, hle⟩, fun hcomp => absurd hcomp (by simp [incClass, store, hc])⟩
  · rw [if_neg heq] at hcount ⊢
    refine ⟨⟨h.trusted, h.classes, h.best, ?_⟩, fun hcomp => absurd hcomp (by
      simp [store, hc])⟩
    rw [hcount]
    exact h.size_le

/-! ## The invariant of a run -/

/-- What holds in every state of a run whose own messages all come in time. -/
structure CertificateRun.Inv (p : CertificateParams T) (r : CertificateRun T) : Prop where
  nodup : (r.cert.msgsFromReplicas.map Prod.fst).Nodup
  stored : ∀ m ∈ r.cert.msgsFromReplicas, m ∈ r.received
  beforeOwn : r.cert.selfMsg p = none → ClassesCount p r.cert
  counting : ∀ own, r.cert.selfMsg p = some own → r.cert.complete = false →
    OwnClassCount p own r.cert
  counted : ∀ own, r.cert.selfMsg p = some own → r.cert.complete = true → r.forced = false →
    p.required ≤ countEquivalent p own r.cert.msgsFromReplicas

namespace CertificateRun

variable {r : CertificateRun T}

theorem Inv.init (p : CertificateParams T) : Inv p ({} : CertificateRun T) where
  nodup := by simp
  stored := by simp
  beforeOwn := fun _ => ⟨rfl, rfl, by simp⟩
  counting := by simp [selfMsg]
  counted := by simp [selfMsg]

theorem Inv.resetAndFree (h : Inv p r) : Inv p (r.step p .resetAndFree) := by
  simp only [CertificateRun.step, MsgsCertificate.resetAndFree]
  split_ifs with he
  · have hnil : r.cert.msgsFromReplicas = [] := isEmpty_iff.1 he
    have hself : r.cert.selfMsg p = none := by simp [MsgsCertificate.selfMsg, hnil]
    have hcls := h.beforeOwn hself
    refine ⟨h.nodup, by simp [hnil], fun _ => ⟨rfl, hcls.notTrusted, hcls.size_le⟩, ?_, ?_⟩
    · intro own hown
      exact absurd hown (by simp [MsgsCertificate.selfMsg, hnil])
    · intro own hown
      simp
  · exact Inv.init p

theorem Inv.tryToMarkComplete (hp : p.OwnClassCounts) (h : Inv p r) :
    Inv p (r.step p .tryToMarkComplete) := by
  simp only [CertificateRun.step]
  have hself : (r.cert.tryToMarkComplete p).selfMsg p = r.cert.selfMsg p := by
    simp [selfMsg]
  cases hown : r.cert.selfMsg p with
  | none =>
    have hno : r.cert.hasMsgFromReplica p.selfId = false := by
      simpa [hasMsgFromReplica, selfMsg] using hown
    rw [tryToMarkComplete_eq_self p r.cert hp.selfIsRequired hno]
    refine ⟨h.nodup, h.stored, h.beforeOwn, h.counting, ?_⟩
    intro own hown'
    rw [hown] at hown'
    simp at hown'
  | some own =>
    have hcomp : (r.cert.tryToMarkComplete p).complete = true := by
      have : r.cert.hasMsgFromReplica p.selfId = true := by
        simpa [hasMsgFromReplica, selfMsg] using
          (by rw [hown]; rfl : (r.cert.selfMsg p).isSome = true)
      simp [MsgsCertificate.tryToMarkComplete, this]
    refine ⟨by simpa using h.nodup, by simpa using h.stored, ?_, ?_, ?_⟩
    · intro hnone
      rw [hself, hown] at hnone
      simp at hnone
    · intro own' _ hc
      rw [hcomp] at hc
      simp at hc
    · -- a certificate that this call completes is marked as forced
      intro own' hown' _ hforced
      rw [hself] at hown'
      simp only [hcomp, Bool.and_true, Bool.or_eq_false_iff, Bool.not_eq_false'] at hforced
      rw [tryToMarkComplete_msgs]
      exact h.counted own' hown' hforced.2 hforced.1

theorem nodup_store {c : MsgsCertificate T} (h : (c.msgsFromReplicas.map Prod.fst).Nodup)
    (hnew : c.hasMsgFromReplica id = false) :
    ((c.store id msg).msgsFromReplicas.map Prod.fst).Nodup := by
  have hnone : c.msgsFromReplicas.lookup id = none := by
    simpa [hasMsgFromReplica] using hnew
  have hne : id ∉ c.msgsFromReplicas.map Prod.fst := by
    intro hmem
    obtain ⟨m, hm, hid⟩ := mem_map.1 hmem
    have := lookup_eq_none_iff.1 hnone m hm
    simp [hid] at this
  rw [store, map_append]
  exact Nodup.append h (nodup_singleton _) (by simpa using hne)

section

variable (hp : p.OwnClassCounts)
include hp

theorem Inv.addMsg (h : Inv p r) (hok : OwnMsgInTime p r (.addMsg msg id)) :
    Inv p (r.step p (.addMsg msg id)) := by
  simp only [CertificateRun.step]
  by_cases hhas : r.cert.hasMsgFromReplica id = true
  · -- only the first message of a replica is looked at
    rw [addMsg_of_hasMsg p r.cert msg id hhas]
    exact ⟨h.nodup, fun m hm => mem_append_left _ (h.stored m hm), h.beforeOwn, h.counting,
      h.counted⟩
  have hnew : r.cert.hasMsgFromReplica id = false := by simpa using hhas
  have hmsgs := addMsg_msgs p r.cert msg id hnew
  have hnd : ((r.cert.addMsg p msg id).2.msgsFromReplicas.map Prod.fst).Nodup := by
    rw [hmsgs]
    exact nodup_store h.nodup hnew
  have hst : ∀ m ∈ (r.cert.addMsg p msg id).2.msgsFromReplicas, m ∈ r.received ++ [(id, msg)] := by
    rw [hmsgs]
    intro m hm
    rcases mem_append.1 hm with hm | hm
    · exact mem_append_left _ (h.stored m hm)
    · exact mem_append_right _ hm
  have hlook : (r.cert.addMsg p msg id).2.selfMsg p = (r.cert.store id msg).selfMsg p := by
    simp only [selfMsg, hmsgs, store]
  cases hown : r.cert.selfMsg p with
  | none =>
    have hcls := h.beforeOwn hown
    have hno : r.cert.hasMsgFromReplica p.selfId = false := by
      simpa [hasMsgFromReplica, selfMsg] using hown
    by_cases hid : id = p.selfId
    · -- the own message arrives
      subst hid
      have heq := addMsg_eq p msg hnew
      rw [if_neg (by simp [hcls.notComplete]), if_pos (by simp [hp.selfTrust])] at heq
      obtain ⟨hcount, hcomp⟩ := OwnClassCount.addSelfMsg hp hcls (hok rfl)
      have hstore := lookup_store_self msg hnew
      refine ⟨hnd, hst, ?_, ?_, ?_⟩
      · intro hnone
        rw [hlook] at hnone
        exact absurd (hnone.symm.trans hstore) (by simp)
      · intro own hown' _
        obtain rfl : msg = own := Option.some.inj (hstore.symm.trans (hlook.symm.trans hown'))
        rw [heq]
        exact hcount
      · intro own hown' hc _
        obtain rfl : msg = own := Option.some.inj (hstore.symm.trans (hlook.symm.trans hown'))
        rw [heq] at hc
        rw [hmsgs]
        exact hcomp hc
    · -- a peer's message, the own one is still missing
      have heq := addMsg_eq p msg hnew
      rw [if_neg (by simp [hcls.notComplete]), if_neg (by simp [hid])] at heq
      have hnone : (r.cert.store id msg).selfMsg p = none := by
        have hown' : lookup p.selfId r.cert.msgsFromReplicas = none := hown
        simp [selfMsg, store, lookup_append,
          lookup_cons, hown', beq_eq_false_iff_ne.2 (Ne.symm hid)]
      refine ⟨hnd, hst, ?_, ?_, ?_⟩
      · intro _
        rw [heq]
        exact hcls.addPeerMsg hp hnew hno hid
      · intro own hown'
        exact absurd (hnone.symm.trans (hlook.symm.trans hown')) (by simp)
      · intro own hown'
        exact absurd (hnone.symm.trans (hlook.symm.trans hown')) (by simp)
  | some own =>
    have hid : id ≠ p.selfId := by
      rintro rfl
      have hown' : r.cert.msgsFromReplicas.lookup p.selfId = some own := hown
      simp [hasMsgFromReplica, hown'] at hnew
    have hsome : (r.cert.addMsg p msg id).2.selfMsg p = some own :=
      hlook.trans (lookup_store_of_some id msg hown)
    have heq := addMsg_eq p msg hnew
    have hmono : countEquivalent p own r.cert.msgsFromReplicas ≤
        countEquivalent p own (r.cert.store id msg).msgsFromReplicas := by
      rw [countEquivalent_store]
      omega
    refine ⟨hnd, hst, fun hnone => absurd (hnone.symm.trans hsome) (by simp), ?_, ?_⟩
    · intro own' hown' hc'
      obtain rfl : own = own' := Option.some.inj (hsome.symm.trans hown')
      by_cases hc : r.cert.complete = true
      · rw [heq, if_pos hc] at hc'
        exact absurd hc (by simpa [store] using hc')
      · have hc : r.cert.complete = false := by simpa using hc
        rw [heq, if_neg (by simp [hc]), if_neg (by simp [hid])]
        exact ((h.counting own hown hc).addPeerMsg hown hc).1
    · intro own' hown' hc' hforced
      obtain rfl : own = own' := Option.some.inj (hsome.symm.trans hown')
      rw [hmsgs]
      by_cases hc : r.cert.complete = true
      · exact le_trans (h.counted own hown hc hforced) hmono
      · have hc : r.cert.complete = false := by simpa using hc
        rw [heq, if_neg (by simp [hc]), if_neg (by simp [hid])] at hc'
        exact ((h.counting own hown hc).addPeerMsg hown hc).2 hc'

theorem Inv.step (h : Inv p r) {a : CertificateStep T} (hok : OwnMsgInTime p r a) :
    Inv p (r.step p a) := by
  cases a with
  | addMsg msg id => exact h.addMsg hp hok
  | tryToMarkComplete => exact h.tryToMarkComplete hp
  | resetAndFree => exact h.resetAndFree

theorem Inv.of_reaches (h : Reaches (CertificateRun.next p) (OwnMsgInTime p) {} r) : Inv p r := by
  refine Reaches.invariant (Inv p) (Inv.init p) (fun u a u' hu hok hn => ?_) h
  obtain rfl : u.step p a = u' := Option.some.inj hn
  exact hu.step hp hok

/-- A complete certificate that nobody forced is backed by its own count. -/
theorem Inv.hasQuorum (h : Inv p r) (hc : r.cert.complete = true) (hf : r.forced = false) :
    r.HasQuorum p := by
  cases hown : r.cert.selfMsg p with
  | none =>
    have := (h.beforeOwn hown).notComplete
    rw [hc] at this
    simp at this
  | some own =>
    refine ⟨own, hown, ?_, le_trans (h.counted own hown hc hf)
      (countEquivalent_le_card h.nodup h.stored)⟩
    have hmem := h.stored _ (mem_of_lookup_eq_some hown)
    simp only [sendersOfEquivalent, mem_toFinset, mem_map, mem_filter]
    exact ⟨(p.selfId, own), ⟨hmem, hp.refl own⟩, rfl⟩

end

end CertificateRun

/-! ## Checkpoint certificates -/

theorem checkpointParams_ownClassCounts (info : ReplicasInfo) (myId : ReplicaId) :
    (checkpointParams info myId).OwnClassCounts where
  selfTrust := rfl
  selfIsRequired := rfl
  refl := by simp [checkpointParams, CheckpointMsg.equivalent]
  symm := by
    simp only [checkpointParams, CheckpointMsg.equivalent, Bool.and_eq_true, beq_iff_eq]
    rintro a b ⟨hs, hd⟩
    exact ⟨hs.symm, hd.symm⟩
  trans := by
    simp only [checkpointParams, CheckpointMsg.equivalent, Bool.and_eq_true, beq_iff_eq]
    rintro a b c ⟨hs, hd⟩ ⟨hs', hd'⟩
    exact ⟨hs.trans hs', hd.trans hd'⟩

/-- **Stable checkpoints have a real quorum, when the own message is in time.** In every run of a
    checkpoint certificate whose own messages arrive before every equivalent one, or after
    `2F + C` of them, a certificate that is complete without a forced call is backed by `2F + C + 1`
    distinct replicas, the own one included, that sent the own state digest. -/
theorem checkpointCertificate_hasQuorum (info : ReplicasInfo) (myId : ReplicaId)
    (r : CertificateRun CheckpointMsg)
    (h : Reaches (CertificateRun.next (checkpointParams info myId))
      (OwnMsgInTime (checkpointParams info myId)) {} r)
    (hc : r.cert.complete = true) (hf : r.forced = false) :
    r.HasQuorum (checkpointParams info myId) := by
  have hp := checkpointParams_ownClassCounts info myId
  exact (CertificateRun.Inv.of_reaches hp h).hasQuorum hp hc hf

/-- The run in which the own message comes first and two peers agree. -/
def ownFirstRun (m : ReplicaId → CheckpointMsg) : CertificateRun CheckpointMsg :=
  (((({} : CertificateRun CheckpointMsg).step (checkpointParams ⟨1, 0⟩ 0) (.addMsg (m 0) 0)).step
    (checkpointParams ⟨1, 0⟩ 0) (.addMsg (m 2) 2)).step (checkpointParams ⟨1, 0⟩ 0)
      (.addMsg (m 1) 1))

theorem checkpointCertificate_hasQuorum_ownFirst :
    (ownFirstRun fun id => ⟨id, 150, 7#256, false⟩).HasQuorum (checkpointParams ⟨1, 0⟩ 0) := by
  refine checkpointCertificate_hasQuorum ⟨1, 0⟩ 0 _ ?_ (by decide) (by decide)
  refine Reaches.snoc (Reaches.snoc (Reaches.snoc (Reaches.refl _) ?_ rfl) ?_ rfl) ?_ rfl
  · exact fun _ => Or.inl (by decide)
  · exact fun h => absurd h (by decide)
  · exact fun h => absurd h (by decide)

/-- With `F = 1` and `C = 0` three replicas are required, but the message of one peer followed by
    the own message completes the certificate: the own message is counted twice. -/
theorem checkpointCertificate_complete_with_two :
    ¬ ∀ r : CertificateRun CheckpointMsg,
      Reaches (CertificateRun.next (checkpointParams ⟨1, 0⟩ 0)) (fun _ _ => True) {} r →
      r.cert.complete = true → r.forced = false → r.HasQuorum (checkpointParams ⟨1, 0⟩ 0) := by
  intro hall
  let m : ReplicaId → CheckpointMsg := fun id => ⟨id, 150, 7#256, false⟩
  let as : List (CertificateStep CheckpointMsg) := [.addMsg (m 1) 1, .addMsg (m 0) 0]
  obtain ⟨own, hown, _, hcard⟩ := hall _
    (reaches_of_runSteps (CertificateRun.next (checkpointParams ⟨1, 0⟩ 0)) as rfl)
    (by decide) (by decide)
  obtain rfl : m 0 = own := Option.some.inj hown
  exact absurd hcard (by decide)

end ConcordBft
