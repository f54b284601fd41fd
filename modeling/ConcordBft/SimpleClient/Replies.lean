import ConcordBft.MsgsCertificate.Peers
import ConcordBft.SimpleClient

set_option autoImplicit false

/-! # What the replies of the replicas can do to a client

The invariant of a waiting client: every stored reply answers the pending request, has its bytes inside
of its message and was received, and the certificate counts right. From it follow which replies make
the client stop, that a returned reply has a quorum, and when replies are discarded. -/

namespace ConcordBft.SimpleClient

open Checked SimpleClientImp List

/-! ## Comparing replies -/

theorem equivalent_iff {r1 r2 : ReplyMsg} : r1.equivalent r2 = true ↔
    r1.reqSeqNum = r2.reqSeqNum ∧ r1.currentPrimaryId = r2.currentPrimaryId ∧
      r1.replyLength = r2.replyLength ∧ r1.reply = r2.reply := by
  simp [ReplyMsg.equivalent, and_assoc]

theorem peersOnly_replyParams (cfg : ClientConfig) : (replyParams cfg).PeersOnly where
  selfTrust := rfl
  selfIsRequired := rfl
  refl := by
    intro a
    exact equivalent_iff.2 ⟨rfl, rfl, rfl, rfl⟩
  symm := by
    intro a b h
    obtain ⟨h1, h2, h3, h4⟩ := equivalent_iff.1 h
    exact equivalent_iff.2 ⟨h1.symm, h2.symm, h3.symm, h4.symm⟩
  trans := by
    intro a b c hab hbc
    obtain ⟨h1, h2, h3, h4⟩ := equivalent_iff.1 hab
    obtain ⟨k1, k2, k3, k4⟩ := equivalent_iff.1 hbc
    exact equivalent_iff.2 ⟨h1.trans k1, h2.trans k2, h3.trans k3, h4.trans k4⟩

/-! ## Messages that do no harm -/

/-- Too short for a header, or with a length field that is neither zero nor so large that its sum with
    the header size leaves the 32 bits. -/
def Harmless (m : ReplyMsg) : Prop :=
  m.size < sizeofHeader ∨ 1 ≤ m.replyLength ∧ sizeofHeader + m.replyLength < 2 ^ 32

instance (m : ReplyMsg) : Decidable (Harmless m) := inferInstanceAs (Decidable (_ ∨ _))

theorem replyLength_lt (m : ReplyMsg) : m.replyLength < 2 ^ 32 := by
  have hlen : ((m.body.drop 12).take 4).length ≤ 4 := by
    rw [length_take]
    omega
  calc m.replyLength < 256 ^ ((m.body.drop 12).take 4).length := LittleEndian.decode_lt _
    _ ≤ 256 ^ 4 := Nat.pow_le_pow_right (by decide) hlen

/-- The length of the first word leaves a number of whole words. -/
theorem firstWord_mod (replyLen : ℕ) :
    (replyLen - (if replyLen % 8 = 0 then 8 else replyLen % 8)) % 8 = 0 := by
  split_ifs with h
  · omega
  · omega

/-- A harmless message that passes the length check has its reply inside. -/
theorem Harmless.inside {m : ReplyMsg} (h : Harmless m) (hsize : ¬ m.size < sizeofHeader)
    (hlen : ¬ m.size < (sizeofHeader + m.replyLength) % 2 ^ 32) : m.replyInside = true := by
  rcases h with hshort | ⟨-, hlt⟩
  · exact absurd hshort hsize
  · rw [Nat.mod_eq_of_lt hlt] at hlen
    exact decide_eq_true (Nat.le_of_not_lt hlen)

theorem debugHash_meets (m : ReplyMsg) :
    Meets (fun _ => ¬ (1 ≤ m.replyLength ∧ m.replyInside = true))
      (fun _ => 1 ≤ m.replyLength ∧ m.replyInside = true) m.debugHash := by
  unfold ReplyMsg.debugHash
  apply meets_require_bind
  · intro hzero h
    exact hzero h.1
  intro hpos
  apply meets_ok_bind (require_of (firstWord_mod m.replyLength))
  apply meets_require_bind
  · intro houtside h
    exact houtside h.2
  intro hinside
  exact .ok ⟨hpos, hinside⟩

/-- A message that is stored or compared: it answers the request `q`, and its reply is inside. -/
structure Answers (q : ℕ) (m : ReplyMsg) : Prop where
  reqSeqNum_eq : m.reqSeqNum = q
  inside : m.replyInside = true

theorem comparesInside_of_inside {r1 r2 : ReplyMsg} (h1 : r1.replyInside = true)
    (h2 : r2.replyInside = true) : r1.comparesInside r2 = true := by
  simp [ReplyMsg.comparesInside, h1, h2]

/-! ## The invariant -/

variable (cfg : ClientConfig) (q : ℕ) (Received : ReplyMsg → Prop)

/-- What `onNewMessage` has checked. -/
structure Queued (m : ReplyMsg) : Prop where
  sender : m.senderId < cfg.numberOfReplicas
  size_le : m.size ≤ maxLegalMsgSize
  type_eq : m.msgType = REPLY_MSG_TYPE
  received : Received m

/-- The client waits for replies to `q`. `Received` holds of the messages that were received. -/
structure Waiting (st : SimpleClientImp) : Prop where
  pending : st.pendingRequest = some q
  cert : PeerCert (replyParams cfg) st.replysCertificate
  stored : ∀ m ∈ st.replysCertificate.msgsFromReplicas,
    m.2.senderId = m.1 ∧ m.1 < cfg.numberOfReplicas ∧ Received m.2 ∧ Answers q m.2
  queue : ∀ m ∈ st.msgQueue, Queued cfg Received m

/-- All received replies to `q`, except those of fewer than `fVal` replicas, are equivalent. -/
def RepliesAgree : Prop :=
  ∃ (common : ReplyMsg) (others : Finset ReplicaId), others.card < cfg.fVal ∧
    ∀ m, Received m → m.senderId < cfg.numberOfReplicas → Answers q m → m.senderId ∉ others →
      common.equivalent m = true

variable {cfg q Received} {st : SimpleClientImp}

/-- With replies that agree there are not enough classes for an inconsistency. -/
theorem RepliesAgree.not_inconsistent (h : RepliesAgree cfg q Received)
    {c : MsgsCertificate ReplyMsg} (hcert : PeerCert (replyParams cfg) c)
    (hstored : ∀ m ∈ c.msgsFromReplicas,
      m.2.senderId = m.1 ∧ m.1 < cfg.numberOfReplicas ∧ Received m.2 ∧ Answers q m.2) :
    c.isInconsistent (replyParams cfg) = false := by
  obtain ⟨common, others, hcard, hagree⟩ := h
  have hle : c.msgClasses.length ≤ others.card + 1 := by
    apply hcert.length_classes_le (peersOnly_replyParams cfg)
    intro m hm hnot
    obtain ⟨hsender, hlt, hrec, hans⟩ := hstored m hm
    exact hagree m.2 hrec (hsender ▸ hlt) hans (hsender ▸ hnot)
  apply decide_eq_false
  show ¬ cfg.fVal + 1 ≤ c.msgClasses.length
  omega

theorem Waiting.addMsg (h : Waiting cfg q Received st) {msg : ReplyMsg}
    (hq : Queued cfg Received msg) (hans : Answers q msg) :
    let c := (st.replysCertificate.addMsg (replyParams cfg) msg msg.senderId).2
    PeerCert (replyParams cfg) c ∧ ∀ m ∈ c.msgsFromReplicas,
      m.2.senderId = m.1 ∧ m.1 < cfg.numberOfReplicas ∧ Received m.2 ∧ Answers q m.2 := by
  refine ⟨h.cert.addMsg (peersOnly_replyParams cfg) msg msg.senderId, ?_⟩
  intro m hm
  rcases mem_addMsg hm with hold | rfl
  · exact h.stored m hold
  · exact ⟨rfl, hq.sender, hq.received, hans⟩

theorem Waiting.resetAndFree (h : Waiting cfg q Received st) {c : MsgsCertificate ReplyMsg}
    (hc : PeerCert (replyParams cfg) c) {discarded : ℕ} :
    Waiting cfg q Received { st with replysCertificate := c.resetAndFree, discarded := discarded } where
  pending := h.pending
  queue := h.queue
  cert := hc.resetAndFree
  stored := by
    intro m hm
    unfold MsgsCertificate.resetAndFree at hm
    by_cases hempty : c.msgsFromReplicas.isEmpty = true
    · simp [isEmpty_iff.1 hempty] at hm
    · rw [if_neg hempty] at hm
      simp at hm

/-- **One message.** The client stops only at a message that is not harmless; otherwise it keeps
    waiting, and if the replies agree it discards nothing. -/
theorem Waiting.onMessageFromReplica (h : Waiting cfg q Received st) {msg : ReplyMsg}
    (hq : Queued cfg Received msg) :
    Meets (fun _ => ¬ Harmless msg)
      (fun st' => Waiting cfg q Received st' ∧
        (RepliesAgree cfg q Received → st'.discarded = st.discarded))
      (st.onMessageFromReplica cfg msg) := by
  unfold SimpleClientImp.onMessageFromReplica ReplyMsg.ToActualMsgType
  rw [require_of hq.type_eq, ok_bind]
  by_cases hsize : msg.size < sizeofHeader
  · rw [if_pos hsize]
    exact .ok ⟨h, fun _ => rfl⟩
  rw [if_neg hsize]
  by_cases hlen : msg.size < (sizeofHeader + msg.replyLength) % 2 ^ 32
  · rw [if_pos hlen]
    exact .ok ⟨h, fun _ => rfl⟩
  rw [if_neg hlen, pure_bind]
  simp only [if_true]
  refine ((debugHash_meets msg).weaken ?_).bind ?_
  · rintro - hbad hharm
    rcases hharm with hshort | ⟨hpos, hlt⟩
    · exact hsize hshort
    · exact hbad ⟨hpos, Harmless.inside (.inr ⟨hpos, hlt⟩) hsize hlen⟩
  rintro - ⟨-, hinside⟩
  by_cases hother : some msg.reqSeqNum ≠ st.pendingRequest
  · rw [if_pos hother]
    exact .ok ⟨h, fun _ => rfl⟩
  have hans : Answers q msg := ⟨by simpa [h.pending] using hother, hinside⟩
  have hcompare : st.replysCertificate.msgsFromReplicas.all (fun r => r.2.comparesInside msg) = true := by
    rw [all_eq_true]
    intro r hr
    exact comparesInside_of_inside (h.stored r hr).2.2.2.inside hinside
  rw [require_of hcompare]
  obtain ⟨hcert, hstored⟩ := h.addMsg hq hans
  split_ifs with hinc
  · apply Meets.ok
    refine ⟨h.resetAndFree hcert, ?_⟩
    intro hagree
    rw [hagree.not_inconsistent hcert hstored] at hinc
    exact absurd hinc Bool.false_ne_true
  · exact .ok ⟨⟨h.pending, hcert, hstored, h.queue⟩, fun _ => rfl⟩

/-- A message that is not harmless does stop the client. -/
theorem not_harmless_stops {msg : ReplyMsg} (hq : Queued cfg Received msg) (hbad : ¬ Harmless msg)
    (st' : SimpleClientImp) : st.onMessageFromReplica cfg msg ≠ .ok st' := by
  intro h
  have hsize : ¬ msg.size < sizeofHeader := fun hlt => hbad (.inl hlt)
  have hwrong : ¬ (1 ≤ msg.replyLength ∧ msg.replyInside = true) := by
    rintro ⟨hpos, hinside⟩
    have hle : sizeofHeader + msg.replyLength ≤ msg.size := of_decide_eq_true hinside
    have hmax : msg.size ≤ 64 * 1024 := hq.size_le
    exact hbad (.inr ⟨hpos, by omega⟩)
  -- a length of zero and a sum that wraps around both pass the check of the length
  have hlen : ¬ msg.size < (sizeofHeader + msg.replyLength) % 2 ^ 32 := by
    have hlt := replyLength_lt msg
    have hout : msg.replyLength = 0 ∨ 2 ^ 32 ≤ sizeofHeader + msg.replyLength := by
      by_contra hnot
      exact hbad (.inr (by omega))
    unfold sizeofHeader at *
    omega
  unfold onMessageFromReplica ReplyMsg.ToActualMsgType at h
  rw [require_of hq.type_eq, ok_bind, if_neg hsize, if_neg hlen, pure_bind] at h
  obtain ⟨hash, hhash, -⟩ := bind_eq_ok h
  exact hwrong ((debugHash_meets msg).of_ok hhash)

/-! ## A whole request -/

/-- The client has no pending request. -/
structure Idle (cfg : ClientConfig) (st : SimpleClientImp) : Prop where
  cert : PeerCert (replyParams cfg) st.replysCertificate
  empty : st.replysCertificate.msgsFromReplicas = []
  queue : st.msgQueue = []
  pending : st.pendingRequest = none
  transmissions : st.numberOfTransmissions = 0

theorem msgsFromReplicas_resetAndFree (c : MsgsCertificate ReplyMsg) :
    c.resetAndFree.msgsFromReplicas = [] := by
  unfold MsgsCertificate.resetAndFree
  by_cases hempty : c.msgsFromReplicas.isEmpty = true
  · rw [if_pos hempty]
    exact isEmpty_iff.1 hempty
  · rw [if_neg hempty]

theorem Waiting.reset (h : Waiting cfg q Received st) : Idle cfg st.reset where
  cert := h.cert.resetAndFree
  empty := msgsFromReplicas_resetAndFree st.replysCertificate
  queue := rfl
  pending := rfl
  transmissions := rfl

/-- `onNewMessage` only queues what it has checked. -/
theorem Waiting.onNewMessage (h : Waiting cfg q Received st) {sourceNode : ℕ} {message : Bytes}
    (hrec : message.length ≤ maxLegalMsgSize →
      Received { senderId := sourceNode % 2 ^ 16, body := message }) :
    Waiting cfg q Received (st.onNewMessage cfg sourceNode message) ∧
      (st.onNewMessage cfg sourceNode message).discarded = st.discarded := by
  unfold SimpleClientImp.onNewMessage
  dsimp only
  split_ifs with hsender hmax hmin htype hpending
  · exact ⟨h, rfl⟩
  · exact ⟨h, rfl⟩
  · exact ⟨h, rfl⟩
  · exact ⟨h, rfl⟩
  · exact ⟨h, rfl⟩
  · refine ⟨⟨h.pending, h.cert, h.stored, ?_⟩, rfl⟩
    intro m hm
    rcases mem_append.1 hm with hold | hnew
    · exact h.queue m hold
    · rw [mem_singleton.1 hnew]
      exact ⟨Nat.lt_of_not_le hsender, Nat.le_of_not_lt hmax, not_ne_iff.1 htype,
        hrec (Nat.le_of_not_lt hmax)⟩

/-- `Received` holds of the messages that are short enough. -/
def Covers (Received : ReplyMsg → Prop) (received : List (ℕ × Bytes)) : Prop :=
  ∀ m ∈ received, m.2.length ≤ maxLegalMsgSize →
    Received { senderId := m.1 % 2 ^ 16, body := m.2 }

theorem Waiting.receive {received : List (ℕ × Bytes)} (h : Waiting cfg q Received st)
    (hrec : Covers Received received) :
    let st' := received.foldl (fun st m => st.onNewMessage cfg m.1 m.2) st
    Waiting cfg q Received st' ∧ st'.discarded = st.discarded := by
  induction received generalizing st with
  | nil => exact ⟨h, rfl⟩
  | cons m rest ih =>
    obtain ⟨hm, hsame⟩ := h.onNewMessage (hrec m List.mem_cons_self)
    obtain ⟨hrest, hsame'⟩ := ih hm fun m' hm' => hrec m' (List.mem_cons_of_mem m hm')
    exact ⟨hrest, hsame'.trans hsame⟩

variable (cfg Received) in
/-- A queued message that can stop the client. -/
def SomeHarm : Prop :=
  ∃ m, Queued cfg Received m ∧ ¬ Harmless m

theorem Waiting.processQueue (h : Waiting cfg q Received st) :
    Meets (fun _ => SomeHarm cfg Received)
      (fun st' => Waiting cfg q Received st' ∧
        (RepliesAgree cfg q Received → st'.discarded = st.discarded))
      (st.msgQueue.foldlM (processMessage cfg) { st with msgQueue := [] }) := by
  have hempty : Waiting cfg q Received { st with msgQueue := [] } :=
    ⟨h.pending, h.cert, h.stored, by simp⟩
  apply meets_foldlM (fun (_ : List ReplyMsg) (st' : SimpleClientImp) =>
    Waiting cfg q Received st' ∧ (RepliesAgree cfg q Received → st'.discarded = st.discarded))
  · exact ⟨hempty, fun _ => rfl⟩
  · rintro done m rest st' hsplit ⟨hwait, hsame⟩
    have hm : Queued cfg Received m := h.queue m (by simp [hsplit])
    unfold processMessage
    split_ifs with hcomplete
    · exact .ok ⟨hwait, hsame⟩
    · apply ((hwait.onMessageFromReplica hm).weaken fun _ hbad => ⟨m, hm, hbad⟩).mono
      rintro st'' ⟨hwait', hsame'⟩
      exact ⟨hwait', fun hagree => (hsame' hagree).trans (hsame hagree)⟩

variable (cfg q Received) in
/-- `required` different replicas have sent the same reply to `q`. -/
def ReplyQuorum (reply : Bytes) : Prop :=
  ∃ senders : Finset ReplicaId, cfg.requiredReplies ≤ senders.card ∧
    ∀ i ∈ senders, i < cfg.numberOfReplicas ∧
      ∃ m, Received m ∧ m.senderId = i ∧ m.reqSeqNum = q ∧ m.replyInside = true ∧
        m.replyLength = reply.length ∧ m.reply = reply

/-- A reply that is inside of its message has the announced length. -/
theorem length_reply {m : ReplyMsg} (h : m.replyInside = true) : m.reply.length = m.replyLength := by
  have hle : sizeofHeader + m.replyLength ≤ m.body.length := of_decide_eq_true h
  simp only [ReplyMsg.reply, length_take, length_drop]
  omega

/-- The end of the request with a complete certificate. -/
theorem Waiting.deliverReply (h : Waiting cfg q Received st)
    (hcomplete : st.replysCertificate.isComplete = true) (lengthOfReplyBuffer : ℕ) :
    ∃ o, st.deliverReply cfg lengthOfReplyBuffer = .ok (st.reset, o) ∧
      (∀ reply, o = .replied reply → ReplyQuorum cfg q Received reply) ∧
      ((∀ m, Received m → m.size ≤ lengthOfReplyBuffer) → ∃ reply, o = .replied reply) := by
  have hreq : (replyParams cfg).maxFails + 1 ≤ (replyParams cfg).required := by
    simp only [replyParams, ClientConfig.requiredReplies]
    omega
  obtain ⟨best, hbest, ⟨id, hmem⟩, hcard⟩ := h.cert.quorum hcomplete hreq
  obtain ⟨-, -, hrec, hans⟩ := h.stored _ hmem
  unfold SimpleClientImp.deliverReply
  rw [hbest]
  by_cases hfits : best.replyLength ≤ lengthOfReplyBuffer
  · simp only [hfits]
    rw [require_of hans.inside]
    refine ⟨.replied best.reply, rfl, ?_, fun _ => ⟨_, rfl⟩⟩
    rintro reply ⟨⟩
    refine ⟨_, hcard, ?_⟩
    intro i hi
    simp only [sendersOfEquivalent, mem_toFinset, mem_map, mem_filter] at hi
    obtain ⟨m, ⟨hm, hequiv⟩, rfl⟩ := hi
    obtain ⟨hsender, hlt, hrecm, hansm⟩ := h.stored m hm
    obtain ⟨-, -, hlen, hreply⟩ := equivalent_iff.1 hequiv
    exact ⟨hlt, m.2, hrecm, hsender, hansm.reqSeqNum_eq, hansm.inside,
      by rw [length_reply hans.inside, hlen], hreply.symm⟩
  · simp only [hfits]
    refine ⟨.bufferTooSmall, rfl, by simp, fun hsmall => absurd ?_ hfits⟩
    have hinside : sizeofHeader + best.replyLength ≤ best.size := of_decide_eq_true hans.inside
    exact le_trans (Nat.le_of_add_left_le hinside) (hsmall best hrec)

variable (cfg q Received) in
/-- What is known after the loop: the client still waits, or it is idle again with an outcome. -/
def AfterWait (discarded : ℕ) (r : SimpleClientImp × Option Outcome) : Prop :=
  (RepliesAgree cfg q Received → r.1.discarded = discarded) ∧
    (r.2 = none → Waiting cfg q Received r.1) ∧ (r.2.isSome = true → Idle cfg r.1) ∧
      ∀ reply, r.2 = some (.replied reply) → ReplyQuorum cfg q Received reply

/-- Sending the request again may drop the replies. -/
theorem Waiting.sendPendingRequest (h : Waiting cfg q Received st) :
    ∃ st', st.sendPendingRequest cfg = .ok st' ∧ Waiting cfg q Received st' ∧
      st'.discarded = st.discarded := by
  unfold SimpleClientImp.sendPendingRequest
  rw [require_of (by rw [h.pending]; rfl)]
  dsimp only
  split_ifs
  · exact ⟨_, rfl, ⟨h.pending, h.cert.resetAndFree,
      by simp [msgsFromReplicas_resetAndFree], h.queue⟩, rfl⟩
  · exact ⟨_, rfl, ⟨h.pending, h.cert, h.stored, h.queue⟩, rfl⟩

/-- Replies that fit the buffer are delivered unless the request times out. -/
def Delivered (lengthOfReplyBuffer : ℕ) (Received : ReplyMsg → Prop) (rounds : List Round)
    (r : SimpleClientImp × Option Outcome) : Prop :=
  (∀ m, Received m → m.size ≤ lengthOfReplyBuffer) → (∀ round ∈ rounds, round.timedOut = false) →
    ∀ o, r.2 = some o → ∃ reply, o = .replied reply

/-- **The loop of `sendRequest`**, by induction on its rounds. -/
theorem Waiting.waitForReply (lengthOfReplyBuffer : ℕ) {rounds : List Round}
    (hrec : ∀ round ∈ rounds, Covers Received round.received) (h : Waiting cfg q Received st) :
    Meets (fun _ => SomeHarm cfg Received)
      (fun r => AfterWait cfg q Received st.discarded r ∧
        Delivered lengthOfReplyBuffer Received rounds r)
      (waitForReply cfg lengthOfReplyBuffer rounds st) := by
  induction rounds generalizing st with
  | nil => exact .ok ⟨⟨fun _ => rfl, fun _ => h, by simp, by simp⟩, by simp [Delivered]⟩
  | cons round rest ih =>
    have hrecRest : ∀ round' ∈ rest, Covers Received round'.received := by
      intro round' hround
      exact hrec round' (mem_cons_of_mem round hround)
    obtain ⟨hqueue, hsame⟩ := h.receive (hrec round mem_cons_self)
    unfold waitForReply
    apply hqueue.processQueue.bind
    rintro st' ⟨hwait, hsame'⟩
    have hdisc : RepliesAgree cfg q Received → st'.discarded = st.discarded := by
      intro hagree
      exact (hsame' hagree).trans hsame
    by_cases hcomplete : st'.replysCertificate.isComplete = true
    · rw [if_pos hcomplete]
      obtain ⟨o, ho, hquorum, hreplied⟩ := hwait.deliverReply hcomplete lengthOfReplyBuffer
      rw [ho]
      apply Meets.ok
      refine ⟨⟨hdisc, by simp, fun _ => hwait.reset,
        fun reply hreply => hquorum reply (Option.some.inj hreply)⟩, ?_⟩
      rintro hsmall - o' ⟨⟩
      exact hreplied hsmall
    rw [if_neg hcomplete]
    by_cases htimeout : round.timedOut = true
    · rw [if_pos htimeout]
      refine .ok ⟨⟨hdisc, by simp, fun _ => hwait.reset, by simp⟩, fun _ hnever => ?_⟩
      simp [hnever round mem_cons_self] at htimeout
    -- what the later rounds do is counted from the state after this one
    have hlater : ∀ st'', Waiting cfg q Received st'' → st''.discarded = st'.discarded →
        Meets (fun _ => SomeHarm cfg Received)
          (fun r => AfterWait cfg q Received st.discarded r ∧
            Delivered lengthOfReplyBuffer Received (round :: rest) r)
          (waitForReply cfg lengthOfReplyBuffer rest st'') := by
      intro st'' hwait' heq
      apply (ih hrecRest hwait').mono
      rintro r ⟨⟨hsame'', hnone, hsome, hquorum⟩, hdelivered⟩
      refine ⟨⟨fun hagree => (hsame'' hagree).trans (heq.trans (hdisc hagree)), hnone, hsome,
        hquorum⟩, fun hsmall hnever => hdelivered hsmall ?_⟩
      exact fun round' hround => hnever round' (mem_cons_of_mem round hround)
    split_ifs with hagain
    · obtain ⟨st'', hsend, hwait', heq⟩ := hwait.sendPendingRequest
      rw [hsend]
      exact hlater st'' hwait' heq
    · exact hlater st' hwait rfl

/-- What is received in the rounds of a request. -/
def ReceivedIn (rounds : List Round) (m : ReplyMsg) : Prop :=
  ∃ round ∈ rounds, ∃ r ∈ round.received, m.senderId = r.1 % 2 ^ 16 ∧ m.body = r.2

/-- **A request of an idle client.** -/
theorem Idle.sendRequest (h : Idle cfg st) (q lengthOfReplyBuffer : ℕ) {rounds : List Round}
    (hrec : ∀ round ∈ rounds, Covers Received round.received) :
    Meets (fun _ => SomeHarm cfg Received)
      (fun r => AfterWait cfg q Received st.discarded r ∧
        Delivered lengthOfReplyBuffer Received rounds r)
      (st.sendRequest cfg q lengthOfReplyBuffer rounds) := by
  have hwait : Waiting cfg q Received { st with pendingRequest := some q } :=
    ⟨rfl, h.cert, by simp [h.empty], by simp [h.queue]⟩
  unfold SimpleClientImp.sendRequest
  rw [require_of (by rw [MsgsCertificate.isEmpty, h.empty]; rfl),
    require_of h.queue, require_of h.pending, require_of h.transmissions]
  obtain ⟨st', hsend, hwait', heq⟩ := hwait.sendPendingRequest
  rw [hsend]
  have hdone := hwait'.waitForReply lengthOfReplyBuffer hrec
  rw [heq] at hdone
  exact hdone

theorem covers_receivedIn (rounds : List Round) :
    ∀ round ∈ rounds, Covers (ReceivedIn rounds) round.received := by
  intro round hround m hm _
  exact ⟨round, hround, m, hm, rfl, rfl⟩

/-- **Which replies stop a client**: whatever is received, a request of an idle client passes all its
    assertions and reads inside of the messages if the length field of every queued message is
    harmless; and the handler of a waiting client returns for exactly the harmless messages. -/
theorem sendRequest_returns_and_stopped_iff (cfg : ClientConfig) :
    (∀ st, Idle cfg st → ∀ q lengthOfReplyBuffer rounds,
      (∀ m, Queued cfg (ReceivedIn rounds) m → Harmless m) →
        ∃ r, st.sendRequest cfg q lengthOfReplyBuffer rounds = .ok r ∧
          (r.2.isSome = true → Idle cfg r.1)) ∧
    (∀ q Received st, Waiting cfg q Received st → ∀ m, Queued cfg Received m →
      ((∃ st', st.onMessageFromReplica cfg m = .ok st') ↔ Harmless m)) := by
  constructor
  · intro st hidle q lengthOfReplyBuffer rounds hharmless
    have hmeets := hidle.sendRequest q lengthOfReplyBuffer (covers_receivedIn rounds)
    have hnone : ∀ e : ClientFailure, SomeHarm cfg (ReceivedIn rounds) → False := by
      rintro - ⟨m, hm, hbad⟩
      exact hbad (hharmless m hm)
    obtain ⟨r, hr, ⟨-, -, hsome, -⟩, -⟩ := (hmeets.weaken hnone).returns
    exact ⟨r, hr, hsome⟩
  · intro q Received st hwait m hm
    constructor
    · rintro ⟨st', hst⟩
      by_contra hbad
      exact not_harmless_stops hm hbad st' hst
    · intro hharm
      obtain ⟨st', hst, -⟩ :=
        ((hwait.onMessageFromReplica hm).weaken fun _ hbad => hbad hharm).returns
      exact ⟨st', hst⟩

/-- A client of four replicas. -/
def fourReplicas : ClientConfig where
  clientId := 4
  fVal := 1
  cVal := 0
  clientPeriodicResetThresh := 30
  fVal_pos := by decide
  thresh_pos := by decide

/-- A reply to the request 7 that names the primary, with the length field as four bytes. -/
def replyBody (primary : UInt8) (len reply : Bytes) : Bytes :=
  [32, 3, primary, 0, 7, 0, 0, 0, 0, 0, 0, 0] ++ len ++ reply

theorem idle_init (cfg : ClientConfig) : Idle cfg {} :=
  ⟨peerCert_empty _, rfl, rfl, rfl, rfl⟩

/-- A reply of one byte, and one that is cut off. -/
theorem sendRequest_returns_fourReplicas :
    ∃ r, sendRequest fourReplicas {} 7 100
      [⟨[(0, replyBody 0 [1, 0, 0, 0] [5]), (1, [32, 3, 0])], false, false⟩] = .ok r := by
  obtain ⟨r, hr, -⟩ := (sendRequest_returns_and_stopped_iff fourReplicas).1 {} (idle_init _) 7 100
    [⟨[(0, replyBody 0 [1, 0, 0, 0] [5]), (1, [32, 3, 0])], false, false⟩] (by
      rintro ⟨sender, body⟩ ⟨-, -, -, hrec⟩
      simp only [ReceivedIn, mem_cons, not_mem_nil, or_false, exists_eq_left,
        exists_eq_or_imp] at hrec
      rcases hrec with ⟨rfl, rfl⟩ | ⟨rfl, rfl⟩ <;> decide)
  exact ⟨r, hr⟩

/-- One replica stops the client with a reply of length zero, or with a length field that passes the
    check because its sum with the header size is zero. -/
theorem sendRequest_stops_fourReplicas :
    sendRequest fourReplicas {} 7 100
      [⟨[(3, replyBody 0 [0, 0, 0, 0] [])], false, false⟩] = .error .assertion ∧
    sendRequest fourReplicas {} 7 100
      [⟨[(3, replyBody 0 [240, 255, 255, 255] [])], false, false⟩] = .error .readOutsideMessage := by
  decide +kernel

/-- **The reply quorum**: a reply that is returned was sent by `2f + c + 1` different replicas, and
    replies are not discarded as inconsistent if those of all but fewer than `f` replicas agree, the
    primary that they name included. -/
theorem sendRequest_quorum_and_keeps_agreeing (cfg : ClientConfig) (st : SimpleClientImp)
    (hidle : Idle cfg st) (q lengthOfReplyBuffer : ℕ) (rounds : List Round)
    (r : SimpleClientImp × Option Outcome)
    (hr : st.sendRequest cfg q lengthOfReplyBuffer rounds = .ok r) :
    (∀ reply, r.2 = some (.replied reply) → ReplyQuorum cfg q (ReceivedIn rounds) reply) ∧
      (RepliesAgree cfg q (ReceivedIn rounds) → r.1.discarded = st.discarded) := by
  obtain ⟨⟨hsame, -, -, hquorum⟩, -⟩ :=
    (hidle.sendRequest q lengthOfReplyBuffer (covers_receivedIn rounds)).of_ok hr
  exact ⟨hquorum, hsame⟩

/-- A client of seven replicas. -/
def sevenReplicas : ClientConfig where
  clientId := 7
  fVal := 2
  cVal := 0
  clientPeriodicResetThresh := 30
  fVal_pos := by decide
  thresh_pos := by decide

/-- Five equal replies and a different one. -/
def sixReplies : List Round :=
  [⟨[(0, replyBody 0 [1, 0, 0, 0] [5]), (6, replyBody 0 [1, 0, 0, 0] [9])], false, true⟩,
    ⟨[(1, replyBody 0 [1, 0, 0, 0] [5]), (2, replyBody 0 [1, 0, 0, 0] [5]),
      (3, replyBody 0 [1, 0, 0, 0] [5]), (4, replyBody 0 [1, 0, 0, 0] [5])], false, false⟩]

theorem sendRequest_quorum_sevenReplicas :
    ∃ r, sendRequest sevenReplicas {} 7 100 sixReplies = .ok r ∧
      r.2 = some (.replied [5]) ∧ ReplyQuorum sevenReplicas 7 (ReceivedIn sixReplies) [5] ∧
      r.1.discarded = 0 := by
  have hagree : RepliesAgree sevenReplicas 7 (ReceivedIn sixReplies) := by
    refine ⟨⟨0, replyBody 0 [1, 0, 0, 0] [5]⟩, {6}, by decide, ?_⟩
    rintro ⟨sender, body⟩ hrec - - hother
    simp only [ReceivedIn, sixReplies, mem_cons, not_mem_nil, or_false, exists_eq_left,
      exists_eq_or_imp] at hrec
    rcases hrec with (⟨rfl, rfl⟩ | ⟨rfl, rfl⟩) | ⟨rfl, rfl⟩ | ⟨rfl, rfl⟩ | ⟨rfl, rfl⟩ | ⟨rfl, rfl⟩
    · decide
    · exact absurd (by decide) hother
    all_goals decide
  have hrun : (sendRequest sevenReplicas {} 7 100 sixReplies).toOption.map Prod.snd =
      some (some (.replied [5])) := by
    decide +kernel
  obtain ⟨r, hr, hreplied⟩ := Option.map_eq_some_iff.1 hrun
  have hok := eq_ok_of_toOption hr
  obtain ⟨hquorum, hsame⟩ := sendRequest_quorum_and_keeps_agreeing sevenReplicas {} (idle_init _) 7
    100 sixReplies r hok
  exact ⟨r, hok, hreplied, hquorum [5] hreplied, hsame hagree⟩

/-- The reply of one faulty replica makes the client discard that of a correct one, so that the equal
    replies of all three correct replicas do not suffice; and two correct replicas that name
    different primaries are enough to discard their equal replies. -/
theorem sendRequest_discards_fourReplicas :
    ((sendRequest fourReplicas {} 7 100
      [⟨[(3, replyBody 0 [1, 0, 0, 0] [9]), (0, replyBody 0 [1, 0, 0, 0] [5]),
        (1, replyBody 0 [1, 0, 0, 0] [5]), (2, replyBody 0 [1, 0, 0, 0] [5])], false,
        false⟩]).toOption.map fun r => (r.1.discarded, r.2)) = some (1, none) ∧
    ((sendRequest fourReplicas {} 7 100
      [⟨[(0, replyBody 0 [1, 0, 0, 0] [5]), (1, replyBody 1 [1, 0, 0, 0] [5])], false,
        false⟩]).toOption.map fun r => (r.1.discarded, r.2)) = some (1, none) := by
  decide +kernel

end ConcordBft.SimpleClient
