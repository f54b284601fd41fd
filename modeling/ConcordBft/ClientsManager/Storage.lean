import ConcordBft.ClientsManager

set_option autoImplicit false

/-! # Reply messages in reserved pages

A message that is written to the pages of a client is read back as it was, and the pages of other
clients keep their contents. -/

namespace ConcordBft.ClientsManager

open Checked LittleEndian ClientReplyMsgHeader List

variable {pages : ReservedPages} {firstPageId : ℕ} {body : Bytes}

/-- The pages from `firstPageId` on hold the bytes of a message. -/
def Stores (pages : ReservedPages) (firstPageId : ℕ) (body : Bytes) : Prop :=
  ∀ k < body.length,
    pages (firstPageId + k / sizeOfReservedPage) (k % sizeOfReservedPage) = body.getD k 0

/-! ## Writing -/

/-- The pages after the first `n` rounds of the loop. -/
theorem foldl_saveReservedPage (chunk : ℕ → Bytes) (n page : ℕ) :
    ((List.range n).foldl (fun pages i => pages.saveReservedPage (firstPageId + i) (chunk i)) pages)
        page =
      if firstPageId ≤ page ∧ page < firstPageId + n then
        fun offset => (chunk (page - firstPageId)).getD offset 0
      else pages page := by
  induction n with
  | zero => rw [if_neg (by omega)]; rfl
  | succ n ih =>
    rw [range_succ, foldl_append, foldl_cons, foldl_nil, ReservedPages.saveReservedPage]
    by_cases hpage : page = firstPageId + n
    · subst hpage
      rw [Function.update_self, if_pos (by omega), Nat.add_sub_cancel_left]
    · rw [Function.update_of_ne hpage, ih]
      by_cases hin : firstPageId ≤ page ∧ page < firstPageId + n
      · rw [if_pos hin, if_pos (by omega)]
      · rw [if_neg hin, if_neg (by omega)]

theorem saveReply_of_outside {page : ℕ}
    (h : page < firstPageId ∨ firstPageId + numOfPages body.length ≤ page) :
    saveReply pages firstPageId body page = pages page := by
  rw [saveReply, foldl_saveReservedPage, if_neg (by omega)]

theorem lt_numOfPages {size k : ℕ} (h : k < size) : k / sizeOfReservedPage < numOfPages size := by
  unfold numOfPages sizeOfReservedPage
  split_ifs <;> omega

theorem numOfPages_le {size : ℕ} (h : size ≤ maxReplyMessageSize) :
    numOfPages size ≤ ReplicaConfig.reservedPagesPerClient := by
  unfold numOfPages ReplicaConfig.reservedPagesPerClient sizeOfReservedPage
  unfold maxReplyMessageSize at *
  split_ifs <;> omega

/-- **A message that was written is stored.** -/
theorem saveReply_stores (pages : ReservedPages) (firstPageId : ℕ) (body : Bytes) :
    Stores (saveReply pages firstPageId body) firstPageId body := by
  intro k hk
  have hpage := lt_numOfPages hk
  rw [saveReply, foldl_saveReservedPage,
    if_pos ⟨Nat.le_add_right _ _, Nat.add_lt_add_left hpage _⟩, Nat.add_sub_cancel_left]
  -- the offset of a byte of the message is inside of its page
  have hoffset : k % sizeOfReservedPage < sizePage body.length (k / sizeOfReservedPage) := by
    unfold sizePage numOfPages sizeOfReservedPage
    split_ifs <;> omega
  have hindex : k / sizeOfReservedPage * sizeOfReservedPage + k % sizeOfReservedPage = k :=
    Nat.div_add_mod' k sizeOfReservedPage
  simp only [getD_eq_getElem?_getD, getElem?_take, getElem?_drop, if_pos hoffset, hindex]

theorem Stores.of_eq (h : Stores pages firstPageId body) {pages' : ReservedPages}
    (heq : ∀ page, firstPageId ≤ page → page < firstPageId + numOfPages body.length →
      pages' page = pages page) : Stores pages' firstPageId body := by
  intro k hk
  have hpage := lt_numOfPages hk
  rw [heq _ (Nat.le_add_right _ _) (Nat.add_lt_add_left hpage _)]
  exact h k hk

/-! ## Reading -/

/-- Full pages of `P` bytes, one after the other. -/
theorem flatMap_fullPages {P : ℕ} (hP : 0 < P) (f : ℕ → ℕ → UInt8) (n : ℕ) :
    ((List.range n).flatMap fun i => (List.range P).map (f i)) =
      (List.range (n * P)).map fun k => f (k / P) (k % P) := by
  induction n with
  | zero => simp
  | succ n ih =>
    rw [range_succ, flatMap_append, ih, Nat.succ_mul, range_add, map_append,
      flatMap_singleton, map_map]
    refine congrArg _ (map_congr_left fun k hk => ?_)
    have hlt := mem_range.1 hk
    rw [Function.comp_apply, mul_comm n P, Nat.mul_add_div hP, Nat.div_eq_of_lt hlt,
      Nat.mul_add_mod, Nat.mod_eq_of_lt hlt, add_zero]

/-- The bytes of a message in the order of its pages. -/
theorem loadReply_eq (pages : ReservedPages) (firstPageId size : ℕ) :
    loadReply pages firstPageId size = (List.range size).map fun k =>
      pages (firstPageId + k / sizeOfReservedPage) (k % sizeOfReservedPage) := by
  have hpos : 0 < sizeOfReservedPage := by decide
  have hfull := flatMap_fullPages hpos (fun i => pages (firstPageId + i)) (size / sizeOfReservedPage)
  have hsize : size / sizeOfReservedPage * sizeOfReservedPage + size % sizeOfReservedPage = size :=
    Nat.div_add_mod' size sizeOfReservedPage
  unfold loadReply ReservedPages.loadReservedPage
  by_cases hmod : size % sizeOfReservedPage = 0
  · have hnum : numOfPages size = size / sizeOfReservedPage := by simp [numOfPages, hmod]
    have hpages : ∀ i, sizePage size i = sizeOfReservedPage := fun i => by simp [sizePage, hmod]
    rw [hmod, add_zero] at hsize
    simp only [hnum, hpages, hfull, hsize]
  · -- the last page is not full
    have hnum : numOfPages size = size / sizeOfReservedPage + 1 := by simp [numOfPages, hmod]
    have hlast : sizePage size (size / sizeOfReservedPage) = size % sizeOfReservedPage := by
      simp [sizePage, hnum, hmod]
    have hpages : ∀ i ∈ range (size / sizeOfReservedPage),
        sizePage size i = sizeOfReservedPage := fun i hi => by
      simp [sizePage, hnum, mem_range.1 hi]
    rw [hnum, range_succ, flatMap_append, flatMap_singleton, hlast,
      flatMap_congr fun i hi => by rw [hpages i hi], hfull]
    conv_rhs => rw [← hsize, range_add, map_append, map_map]
    refine congrArg _ (map_congr_left fun k hk => ?_)
    have hlt : k < sizeOfReservedPage :=
      lt_trans (mem_range.1 hk) (Nat.mod_lt _ hpos)
    rw [Function.comp_apply, mul_comm _ sizeOfReservedPage, Nat.mul_add_div hpos,
      Nat.div_eq_of_lt hlt, Nat.mul_add_mod, Nat.mod_eq_of_lt hlt, add_zero]

/-- **A stored message is read back.** -/
theorem Stores.loadReply (h : Stores pages firstPageId body) :
    loadReply pages firstPageId body.length = body := by
  rw [loadReply_eq]
  refine ext_getElem (by simp) fun k hk hk' => ?_
  rw [getElem_map, getElem_range, h k hk', getD_eq_getElem?_getD,
    getElem?_eq_getElem hk', Option.getD_some]

/-! ## Headers -/

theorem fieldAt_congr {f g : ℕ → UInt8} {offset width : ℕ}
    (h : ∀ i, offset ≤ i → i < offset + width → f i = g i) :
    fieldAt f offset width = fieldAt g offset width := by
  unfold fieldAt
  refine congrArg _ (map_congr_left fun i hi => ?_)
  exact h _ (Nat.le_add_right _ _) (Nat.add_lt_add_left (mem_range.1 hi) _)

theorem fieldAt_getD {bytes : Bytes} {offset width : ℕ} (h : offset + width ≤ bytes.length) :
    fieldAt (fun i => bytes.getD i 0) offset width = decode (field bytes offset width) := by
  unfold fieldAt
  refine congrArg _ (ext_getElem (by simp [length_field h]) fun k hk hk' => ?_)
  rw [length_field h] at hk'
  simp only [getElem_map, getElem_range, getD_eq_getElem?_getD, field, getElem_take, getElem_drop]
  rw [getElem?_eq_getElem (by omega), Option.getD_some]

theorem length_body (m : ClientReplyMsg) :
    m.body.length = sizeOfClientReplyMsgHeader + m.reply.length := by
  simp [ClientReplyMsg.body, sizeOfClientReplyMsgHeader]
  omega

/-- The header at the front of a message. -/
theorem ofBytes_body (m : ClientReplyMsg) :
    ofBytes (fun i => m.body.getD i 0) =
      ⟨ClientReplyMsg.msgCode, m.currentPrimaryId % 256 ^ 2, m.reqSeqNum,
        m.reply.length % 256 ^ 4⟩ := by
  have hlength := length_body m
  unfold sizeOfClientReplyMsgHeader at hlength
  unfold ofBytes
  rw [fieldAt_getD (by omega), fieldAt_getD (by omega), fieldAt_getD (by omega),
    fieldAt_getD (by omega)]
  simp [ClientReplyMsg.body, decode_encode]
  decide

/-- The header of a stored message is in its first page. -/
theorem Stores.header {m : ClientReplyMsg} (h : Stores pages firstPageId m.body) :
    ofBytes (pages firstPageId) =
      ofBytes fun i => m.body.getD i 0 := by
  have hbyte : ∀ i < 16, pages firstPageId i = m.body.getD i 0 := by
    intro i hi
    have hlt : i < m.body.length := by
      rw [length_body, sizeOfClientReplyMsgHeader]
      omega
    have := h i hlt
    have hsmall : i < sizeOfReservedPage := by
      unfold sizeOfReservedPage
      omega
    rwa [Nat.div_eq_of_lt hsmall, Nat.mod_eq_of_lt hsmall] at this
  have hfield : ∀ offset width, offset + width ≤ 16 →
      fieldAt (pages firstPageId) offset width = fieldAt (fun i => m.body.getD i 0) offset width :=
    fun offset width hle => fieldAt_congr fun i _ hi => hbyte i (by omega)
  unfold ofBytes
  rw [hfield 0 2 (by omega), hfield 2 2 (by omega), hfield 4 8 (by omega), hfield 12 4 (by omega)]

/-! ## The latest reply of a client -/

/-- What the pages of a client hold: nothing, or the reply to a request. -/
def HoldsReply (cfg : ReplicaConfig) (pages : ReservedPages) (clientId : NodeIdType) :
    Option (ReqId × Bytes) → Prop
  | none => ofBytes (pages (cfg.firstPageId clientId)) = ⟨0, 0, 0, 0⟩
  | some (reqSeqNum, reply) => 0 < reqSeqNum ∧ 0 < reply.length ∧
      reply.length + sizeOfClientReplyMsgHeader ≤ maxReplyMessageSize ∧
      Stores pages (cfg.firstPageId clientId) (ClientReplyMsg.mk 0 reqSeqNum reply).body

variable {cfg : ReplicaConfig} {cm : ClientsManager} {clientId : NodeIdType} {reqSeqNum : ReqId}
  {reply : Bytes}

theorem HoldsReply.header (h : HoldsReply cfg pages clientId (some (reqSeqNum, reply))) :
    ofBytes (pages (cfg.firstPageId clientId)) =
      ⟨ClientReplyMsg.msgCode, 0, reqSeqNum, reply.length⟩ := by
  obtain ⟨-, -, hfits, hstores⟩ := h
  rw [hstores.header, ofBytes_body]
  have hlen : reply.length % 256 ^ 4 = reply.length := by
    unfold maxReplyMessageSize at hfits
    omega
  rw [hlen]
  rfl

theorem HoldsReply.reqSeqNum_eq {pages : ReservedPages} {c : NodeIdType}
    {last : Option (ReqId × Bytes)} (h : HoldsReply cfg pages c last) :
    (ofBytes (pages (cfg.firstPageId c))).reqSeqNum =
      (last.map (·.1)).getD 0 := by
  cases last with
  | none => rw [show ofBytes _ = _ from h]; rfl
  | some last => rw [HoldsReply.header h]; rfl

/-- **The latest reply is returned**, with the current primary. -/
theorem HoldsReply.allocateMsgWithLatestReply
    (h : HoldsReply cfg cm.reservedPages clientId (some (reqSeqNum, reply)))
    (hlast : cm.seqNumberOfLastReplyToClient clientId = reqSeqNum) (currentPrimaryId : ReplicaId) :
    cm.allocateMsgWithLatestReply cfg clientId currentPrimaryId =
      .ok ⟨currentPrimaryId, reqSeqNum, reply⟩ := by
  have hheader := h.header
  obtain ⟨hpos, hne, hfits, hstores⟩ := h
  have hload : loadReply cm.reservedPages (cfg.firstPageId clientId)
      (sizeOfClientReplyMsgHeader + reply.length) = (ClientReplyMsg.mk 0 reqSeqNum reply).body := by
    rw [← length_body ⟨0, reqSeqNum, reply⟩]
    exact hstores.loadReply
  have hzero : (cm.indexToClientInfo clientId).lastSeqNumberOfReply ≠ 0 := by
    rw [← seqNumberOfLastReplyToClient, hlast]
    exact (UInt64.ne_of_lt hpos).symm
  simp only [ClientsManager.allocateMsgWithLatestReply, hheader, Assert, require_of hzero,
    require_of hne, require_of hfits, hload, ofBytes_body]
  rfl

/-- The pages of two clients do not overlap. -/
theorem firstPageId_disjoint {c d : NodeIdType} (hc : cfg.isValidClient c = true)
    (hd : cfg.isValidClient d = true) (hne : c ≠ d) :
    cfg.firstPageId c + ReplicaConfig.reservedPagesPerClient ≤ cfg.firstPageId d ∨
      cfg.firstPageId d + ReplicaConfig.reservedPagesPerClient ≤ cfg.firstPageId c := by
  simp only [ReplicaConfig.isValidClient, Bool.and_eq_true, decide_eq_true_eq] at hc hd
  unfold ReplicaConfig.firstPageId
  rcases Nat.lt_or_gt_of_ne hne with hlt | hgt
  · left
    rw [← Nat.succ_mul]
    exact Nat.mul_le_mul_right _ (by omega)
  · right
    rw [← Nat.succ_mul]
    exact Nat.mul_le_mul_right _ (by omega)

theorem numOfPages_body_le {m : ClientReplyMsg}
    (hfits : m.reply.length + sizeOfClientReplyMsgHeader ≤ maxReplyMessageSize) :
    numOfPages m.body.length ≤ ReplicaConfig.reservedPagesPerClient := by
  refine numOfPages_le ?_
  exact hfits

/-- **The pages of other clients are not touched by it.** -/
theorem HoldsReply.saveReply_other {d : NodeIdType} {last : Option (ReqId × Bytes)}
    (h : HoldsReply cfg pages d last) (hc : cfg.isValidClient clientId = true)
    (hd : cfg.isValidClient d = true) (hne : clientId ≠ d)
    (hfits : reply.length + sizeOfClientReplyMsgHeader ≤ maxReplyMessageSize) :
    HoldsReply cfg (saveReply pages (cfg.firstPageId clientId)
      (ClientReplyMsg.mk 0 reqSeqNum reply).body) d last := by
  have hpages := numOfPages_body_le (m := ⟨0, reqSeqNum, reply⟩) hfits
  have hdisjoint := firstPageId_disjoint hc hd hne
  cases last with
  | none =>
    unfold HoldsReply
    rw [saveReply_of_outside (by omega)]
    exact h
  | some last =>
    obtain ⟨hpos, hlen, hfits', hstores⟩ := h
    refine ⟨hpos, hlen, hfits', hstores.of_eq fun page hlo hhi => saveReply_of_outside ?_⟩
    have hpages' := numOfPages_body_le (m := ⟨0, last.1, last.2⟩) hfits'
    omega

end ConcordBft.ClientsManager
