import ConcordBft.BCStateTran.Handlers
import ConcordBft.MsgsCertificate.Proofs
import Mathlib.Data.Finset.Option

set_option autoImplicit false

/-! # Certificates without a message of one's own

If `SelfTrust` and `SelfIsRequired` are off, every message is one of a peer. The classes then are what
they should be: their representatives are pairwise not equivalent, no counter is above the number of
messages equivalent to the representative, and completeness is decided on the counter of one class. -/

namespace ConcordBft

open MsgsCertificate List

variable {T : Type}

/-- The assumptions on the template arguments. -/
structure CertificateParams.PeersOnly (p : CertificateParams T) : Prop where
  selfTrust : p.SelfTrust = false
  selfIsRequired : p.SelfIsRequired = false
  refl : ∀ a, p.equivalent a a = true
  symm : ∀ a b, p.equivalent a b = true → p.equivalent b a = true
  trans : ∀ a b c, p.equivalent a b = true → p.equivalent b c = true → p.equivalent a c = true

/-- The replica that represents class number `i`, and its message. -/
def RepresentedBy (c : MsgsCertificate T) (i : ℕ) (id : ReplicaId) (rep : T) : Prop :=
  ∃ cls, c.msgClasses[i]? = some cls ∧ cls.representativeReplica = id ∧
    c.msgsFromReplicas.lookup id = some rep

/-- The invariant of a certificate of peers. -/
structure PeerCert (p : CertificateParams T) (c : MsgsCertificate T) : Prop where
  notTrusted : c.hasTrustedSelfClass = false
  nodup : (c.msgsFromReplicas.map Prod.fst).Nodup
  size_le : ∀ (i : ℕ) (cls : MsgClassInfo), c.msgClasses[i]? = some cls →
    ∃ rep, c.msgsFromReplicas.lookup cls.representativeReplica = some rep ∧
      cls.size ≤ countEquivalent p rep c.msgsFromReplicas
  differ : ∀ i j id id' x y, i ≠ j → RepresentedBy c i id x → RepresentedBy c j id' y →
    p.equivalent x y = false
  best : ∀ i, c.bestClass = some i → ∃ cls, c.msgClasses[i]? = some cls ∧
    c.sizeOfBestClass ≤ cls.size
  done : c.complete = true → c.bestClass.isSome = true ∧ p.required ≤ c.sizeOfBestClass

variable {p : CertificateParams T} {c : MsgsCertificate T} {msg : T} {id : ReplicaId}

theorem peerCert_empty (p : CertificateParams T) : PeerCert p {} where
  notTrusted := rfl
  nodup := nodup_nil
  size_le := by simp
  differ := by
    rintro i j id id' x y - ⟨cls, hcls, -⟩
    simp at hcls
  best := by simp
  done := by simp

theorem PeerCert.resetAndFree (h : PeerCert p c) : PeerCert p c.resetAndFree := by
  unfold MsgsCertificate.resetAndFree
  split_ifs with hempty
  · exact { h with done := by simp }
  · exact peerCert_empty p

/-- A class keeps its representative when a message is stored. -/
theorem PeerCert.representedBy_store (h : PeerCert p c) {i : ℕ} {id' : ReplicaId} {rep : T}
    (hrep : RepresentedBy (c.store id msg) i id' rep) : RepresentedBy c i id' rep := by
  obtain ⟨cls, hcls, rfl, hlookup⟩ := hrep
  obtain ⟨rep', hrep', -⟩ := h.size_le i cls hcls
  rw [lookup_store_of_some id msg hrep'] at hlookup
  exact ⟨cls, hcls, rfl, hlookup ▸ hrep'⟩

/-- Storing a message changes no class. -/
theorem PeerCert.store (h : PeerCert p c) (hnew : c.hasMsgFromReplica id = false) :
    PeerCert p (c.store id msg) where
  notTrusted := h.notTrusted
  nodup := CertificateRun.nodup_store h.nodup hnew
  size_le := by
    intro i cls hi
    obtain ⟨rep, hrep, hle⟩ := h.size_le i cls hi
    refine ⟨rep, lookup_store_of_some id msg hrep, ?_⟩
    rw [countEquivalent_store]
    omega
  differ := by
    intro i j id' id'' x y hij hx hy
    exact h.differ i j id' id'' x y hij (h.representedBy_store hx) (h.representedBy_store hy)
  best := h.best
  done := h.done

theorem getElem?_incClass {i j : ℕ} {cls : MsgClassInfo} (h : (c.incClass i).msgClasses[j]? = some cls) :
    ∃ cls0, c.msgClasses[j]? = some cls0 ∧
      cls.representativeReplica = cls0.representativeReplica ∧
      cls.size = cls0.size + if i = j then 1 else 0 := by
  simp only [incClass, getElem?_modify, Option.map_eq_map, Option.map_eq_some_iff] at h
  obtain ⟨cls0, hcls0, rfl⟩ := h
  refine ⟨cls0, hcls0, ?_⟩
  by_cases hij : i = j <;> simp [hij]

/-- `updateBestClass` makes the class the best one if it is larger than the best one so far, and marks
    the certificate only on the counter of the best class. -/
theorem updateBestClass_cases (c : MsgsCertificate T) (i : ℕ) :
    ((c.updateBestClass p i).bestClass = some i ∧
        (c.updateBestClass p i).sizeOfBestClass = c.classSize i ∨
      (c.updateBestClass p i).bestClass = c.bestClass ∧
        (c.updateBestClass p i).sizeOfBestClass = c.sizeOfBestClass) ∧
    ((c.updateBestClass p i).complete = true → c.complete = true ∨
      (c.updateBestClass p i).bestClass = some i ∧
        p.required ≤ (c.updateBestClass p i).sizeOfBestClass) := by
  unfold updateBestClass
  split_ifs with hbest
  · by_cases hreq : p.required ≤ c.classSize i
    · simp [hreq]
    · rw [if_neg (by simp [hreq])]
      simp
      exact Or.inl
  · by_cases hdone : c.bestClass = some i ∧ p.required ≤ c.sizeOfBestClass
    · simp [hdone]
    · rw [if_neg hdone]
      simp
      exact Or.inl

/-- A message joins the class it is equivalent to. -/
theorem PeerCert.join (h : PeerCert p c) (hnew : c.hasMsgFromReplica id = false)
    (hcomp : c.complete = false) {i : ℕ} (hfind : (c.store id msg).findClass p msg = some i) :
    PeerCert p (((c.store id msg).incClass i).updateBestClass p i) := by
  have hcount : ClassesCount p c := ⟨hcomp, h.notTrusted, h.size_le⟩
  have hjoin := hcount.join hfind
  have hs : PeerCert p (c.store id msg) := h.store hnew
  have hlt : i < (c.store id msg).msgClasses.length := (findIdx?_eq_some_iff_getElem.1 hfind).1
  refine ⟨by simp [hs.notTrusted], by simpa using hs.nodup, ?_, ?_, ?_, ?_⟩
  · simpa using hjoin.size_le
  · rintro a b id' id'' x y hab ⟨cls, hcls, rfl, hx⟩ ⟨cls', hcls', rfl, hy⟩
    simp only [updateBestClass_classes, updateBestClass_msgs] at hcls hcls' hx hy
    obtain ⟨cls0, hcls0, hrep0, -⟩ := getElem?_incClass hcls
    obtain ⟨cls1, hcls1, hrep1, -⟩ := getElem?_incClass hcls'
    exact hs.differ a b _ _ x y hab ⟨cls0, hcls0, hrep0.symm, hx⟩ ⟨cls1, hcls1, hrep1.symm, hy⟩
  · intro b hb
    obtain ⟨hcases, -⟩ := updateBestClass_cases (p := p) ((c.store id msg).incClass i) i
    rw [updateBestClass_classes]
    rcases hcases with ⟨hbest, hsize⟩ | ⟨hbest, hsize⟩
    · obtain rfl : i = b := Option.some.inj (hbest.symm.trans hb)
      have hlt' : i < ((c.store id msg).incClass i).msgClasses.length := by
        simpa [incClass] using hlt
      rw [hsize, classSize, getElem?_eq_getElem hlt']
      simp
    · rw [hbest] at hb
      obtain ⟨cls, hcls, hle⟩ := hs.best b hb
      have hlt' : b < ((c.store id msg).incClass i).msgClasses.length := by
        have := (List.getElem?_eq_some_iff.1 hcls).1
        simpa [incClass] using this
      obtain ⟨cls0, hcls0, -, hsize0⟩ := getElem?_incClass (getElem?_eq_getElem hlt')
      refine ⟨_, getElem?_eq_getElem hlt', ?_⟩
      rw [hsize, hsize0, Option.some.inj (hcls0.symm.trans hcls)]
      exact Nat.le_trans hle (Nat.le_add_right _ _)
  · intro hdone
    obtain ⟨-, hmark⟩ := updateBestClass_cases (p := p) ((c.store id msg).incClass i) i
    rcases hmark hdone with hold | ⟨hbest, hle⟩
    · exact absurd hold (by simp [MsgsCertificate.incClass, MsgsCertificate.store, hcomp])
    · exact ⟨by simp [hbest], hle⟩

theorem PeerCert.create (hp : p.PeersOnly) (h : PeerCert p c) (hnew : c.hasMsgFromReplica id = false)
    (hcomp : c.complete = false) (hfind : (c.store id msg).findClass p msg = none) :
    PeerCert p ((c.store id msg).createClass p id) := by
  have hs : PeerCert p (c.store id msg) := h.store hnew
  unfold createClass
  split_ifs with hfull
  · exact hs
  -- the new class is the last one, and its representative is the new message
  have hself := lookup_store_self msg hnew
  have hnone : ∀ j id' x, RepresentedBy (c.store id msg) j id' x → p.equivalent x msg = false := by
    rintro j id' x ⟨cls, hcls, rfl, hx⟩
    have hnot := findIdx?_eq_none_iff.1 hfind cls (mem_of_getElem? hcls)
    simpa [belongsTo, hx] using hnot
  have hget : ∀ j cls, ((c.store id msg).msgClasses ++ [⟨1, id⟩])[j]? = some cls →
      (c.store id msg).msgClasses[j]? = some cls ∨
        j = (c.store id msg).msgClasses.length ∧ cls = ⟨1, id⟩ := by
    intro j cls hj
    rw [getElem?_append] at hj
    by_cases hlt : j < (c.store id msg).msgClasses.length
    · rw [if_pos hlt] at hj
      exact Or.inl hj
    · rw [if_neg hlt] at hj
      obtain ⟨hj0, hcls⟩ := List.getElem?_eq_some_iff.1 hj
      rw [length_singleton] at hj0
      refine Or.inr ⟨by omega, ?_⟩
      rw [← hcls, getElem_singleton]
  have hclasses : PeerCert p { c.store id msg with
      msgClasses := (c.store id msg).msgClasses ++ [⟨1, id⟩] } := by
    refine ⟨hs.notTrusted, hs.nodup, ?_, ?_, ?_, ?_⟩
    · intro j cls hj
      rcases hget j cls hj with hold | ⟨-, rfl⟩
      · exact hs.size_le j cls hold
      · exact ⟨msg, hself, one_le_countEquivalent (mem_of_lookup_eq_some hself) (hp.refl msg)⟩
    · rintro a b id' id'' x y hab ⟨cls, hcls, rfl, hx⟩ ⟨cls', hcls', rfl, hy⟩
      rcases hget a cls hcls with hold | ⟨ha, rfl⟩ <;>
        rcases hget b cls' hcls' with hold' | ⟨hb, rfl⟩
      · exact hs.differ a b _ _ x y hab ⟨cls, hold, rfl, hx⟩ ⟨cls', hold', rfl, hy⟩
      · obtain rfl : msg = y := Option.some.inj (hself.symm.trans hy)
        exact hnone a _ x ⟨cls, hold, rfl, hx⟩
      · obtain rfl : msg = x := Option.some.inj (hself.symm.trans hx)
        by_contra heq
        have hsymm := hp.symm _ _ (Bool.of_not_eq_false heq)
        rw [hnone b _ y ⟨cls', hold', rfl, hy⟩] at hsymm
        simp at hsymm
      · exact absurd (ha.trans hb.symm) hab
    · intro b hb
      obtain ⟨cls, hcls, hle⟩ := hs.best b hb
      refine ⟨cls, ?_, hle⟩
      rw [List.getElem?_append_left (List.getElem?_eq_some_iff.1 hcls).1]
      exact hcls
    · exact hs.done
  by_cases hbest : (c.store id msg).bestClass = none
  · rw [if_pos hbest]
    refine { hclasses with best := ?_, done := ?_ }
    · intro b hb
      obtain rfl := Option.some.inj hb
      simp
    · intro hdone
      exact absurd hdone (by simp [MsgsCertificate.store, hcomp])
  · rw [if_neg hbest]
    exact hclasses

/-- **One message.** -/
theorem PeerCert.addMsg (hp : p.PeersOnly) (h : PeerCert p c) (msg : T) (id : ReplicaId) :
    PeerCert p (c.addMsg p msg id).2 := by
  by_cases hhas : c.hasMsgFromReplica id = true
  · rw [addMsg_of_hasMsg p c msg id hhas]
    exact h
  have hnew : c.hasMsgFromReplica id = false := by simpa using hhas
  rw [addMsg_eq p msg hnew]
  by_cases hcomp : c.complete = true
  · rw [if_pos hcomp]
    exact h.store hnew
  rw [if_neg hcomp, if_neg (by simp [hp.selfTrust]), addPeerMsg,
    if_neg (by simp [MsgsCertificate.store, h.notTrusted])]
  have hcomp' : c.complete = false := by simpa using hcomp
  cases hfind : (c.store id msg).findClass p msg with
  | some i => exact h.join hnew hcomp' hfind
  | none => exact h.create hp hnew hcomp' hfind

theorem mem_addMsg {m : ReplicaId × T} (hm : m ∈ (c.addMsg p msg id).2.msgsFromReplicas) :
    m ∈ c.msgsFromReplicas ∨ m = (id, msg) := by
  by_cases hhas : c.hasMsgFromReplica id = true
  · rw [addMsg_of_hasMsg p c msg id hhas] at hm
    exact Or.inl hm
  · rw [addMsg_msgs p c msg id (by simpa using hhas)] at hm
    simpa using hm

/-- **A complete certificate has a quorum**: the message that it takes as the correct one is
    equivalent to those of `required` different replicas. -/
theorem PeerCert.quorum (h : PeerCert p c) (hdone : c.complete = true)
    (hreq : p.maxFails + 1 ≤ p.required) :
    ∃ m, c.bestCorrectMsg p = some m ∧ (∃ id, (id, m) ∈ c.msgsFromReplicas) ∧
      p.required ≤ (sendersOfEquivalent p m c.msgsFromReplicas).card := by
  obtain ⟨hsome, hle⟩ := h.done hdone
  obtain ⟨i, hi⟩ := Option.isSome_iff_exists.1 hsome
  obtain ⟨cls, hcls, hsize⟩ := h.best i hi
  obtain ⟨m, hm, hcount⟩ := h.size_le i cls hcls
  refine ⟨m, ?_, ⟨_, mem_of_lookup_eq_some hm⟩, ?_⟩
  · rw [bestCorrectMsg, if_pos (Or.inr (le_trans hreq hle)), hi]
    simp [hcls, hm]
  · have hcard : countEquivalent p m c.msgsFromReplicas ≤
        (sendersOfEquivalent p m c.msgsFromReplicas).card :=
      countEquivalent_le_card h.nodup fun x hx => hx
    omega

theorem PeerCert.exists_representative (h : PeerCert p c) {i : ℕ} (hi : i < c.msgClasses.length) :
    ∃ id x, RepresentedBy c i id x := by
  obtain ⟨rep, hrep, -⟩ := h.size_le i _ (getElem?_eq_getElem hi)
  exact ⟨_, rep, _, getElem?_eq_getElem hi, rfl, hrep⟩

/-- The representative of class number `i`, unless it is not one of `others`. -/
def representativeAmong (c : MsgsCertificate T) (others : Finset ReplicaId) (i : ℕ) :
    Option ReplicaId :=
  ((c.msgClasses[i]?).map (·.representativeReplica)).filter fun id => decide (id ∈ others)

theorem RepresentedBy.among {i : ℕ} {id : ReplicaId} {x : T} (h : RepresentedBy c i id x)
    (others : Finset ReplicaId) :
    representativeAmong c others i = if id ∈ others then some id else none := by
  obtain ⟨cls, hcls, rfl, -⟩ := h
  by_cases hmem : cls.representativeReplica ∈ others <;>
    simp [representativeAmong, hcls, hmem]

/-- **Few classes.** If all messages but those of some replicas are equivalent to one another, there
    are at most as many classes as those replicas, and one more. -/
theorem PeerCert.length_classes_le (hp : p.PeersOnly) (h : PeerCert p c) {others : Finset ReplicaId}
    {common : T} (hagree : ∀ m ∈ c.msgsFromReplicas, m.1 ∉ others → p.equivalent common m.2 = true) :
    c.msgClasses.length ≤ others.card + 1 := by
  rw [← Finset.card_range c.msgClasses.length, ← Finset.card_insertNone]
  apply Finset.card_le_card_of_injOn (representativeAmong c others)
  · intro i hi
    obtain ⟨id, x, hrep⟩ := h.exists_representative (Finset.mem_range.1 hi)
    rw [hrep.among others]
    by_cases hmem : id ∈ others <;> simp [hmem]
  · intro i hi j hj hij
    obtain ⟨id, x, hx⟩ := h.exists_representative (Finset.mem_range.1 hi)
    obtain ⟨id', y, hy⟩ := h.exists_representative (Finset.mem_range.1 hj)
    by_contra hne
    have hdiffer := h.differ i j id id' x y hne hx hy
    rw [hx.among others, hy.among others] at hij
    obtain ⟨-, -, -, hxmem⟩ := hx
    obtain ⟨-, -, -, hymem⟩ := hy
    by_cases hid : id ∈ others
    · by_cases hid' : id' ∈ others
      · -- one replica represents one class
        rw [if_pos hid, if_pos hid'] at hij
        obtain rfl := Option.some.inj hij
        obtain rfl := Option.some.inj (hxmem.symm.trans hymem)
        rw [hp.refl x] at hdiffer
        simp at hdiffer
      · simp [hid, hid'] at hij
    · by_cases hid' : id' ∈ others
      · simp [hid, hid'] at hij
      · -- the messages that agree are in one class
        have hcx := hagree _ (mem_of_lookup_eq_some hxmem) hid
        have hcy := hagree _ (mem_of_lookup_eq_some hymem) hid'
        rw [hp.trans _ _ _ (hp.symm _ _ hcx) hcy] at hdiffer
        simp at hdiffer

end ConcordBft
