import ConcordBft.Lib.Machine
import ConcordBft.PyClient

set_option autoImplicit false

/-! # The quorum of the Python client

The dictionary of replies has one entry for each address, so a reply that is counted `2f + c + 1`
times has that many senders, and one of them is correct. The client checks neither the form of a
datagram nor the address that it comes from: `Request.Clean` is what has to hold of the datagrams.
-/

namespace ConcordBft.PyClient

open Checked

variable {Addr : Type} {reply : ReplyHeader × Bytes}

/-! ## Reply datagrams -/

/-- A datagram that begins with the type and the header of a reply. -/
def IsReply (data : Bytes) : Prop :=
  MSG_TYPE_SIZE + REPLY_HEADER_SIZE ≤ data.length ∧
    LittleEndian.decode (data.take MSG_TYPE_SIZE) = REPLY_MSG_TYPE

instance (data : Bytes) : Decidable (IsReply data) := inferInstanceAs (Decidable (_ ∧ _))

/-- The header of a reply as it lies in the datagram. -/
def headerOf (data : Bytes) : ReplyHeader :=
  ⟨LittleEndian.decode ((data.drop 2).take 2), LittleEndian.decode ((data.drop 4).take 8),
    LittleEndian.decode ((data.drop 12).take 4)⟩

theorem unpackReply_of_isReply {data : Bytes} (h : IsReply data) :
    unpackReply data = .ok (headerOf data, data.drop 16) := by
  obtain ⟨hlength, htype⟩ := h
  have hlong : 16 ≤ data.length := hlength
  have hfield : (data.take MSG_TYPE_SIZE).length = MSG_TYPE_SIZE := by
    rw [List.length_take]
    omega
  have hmsgType : unpackMsgType data = .ok REPLY_MSG_TYPE := by
    rw [unpackMsgType, if_pos hfield, htype]
  have hheader : unpackReplyHeader data = .ok (headerOf data) := by
    have hfits : ((data.take (REPLY_HEADER_SIZE + MSG_TYPE_SIZE)).drop MSG_TYPE_SIZE).length =
        REPLY_HEADER_SIZE := by
      rw [List.length_drop, List.length_take, REPLY_HEADER_SIZE, MSG_TYPE_SIZE]
      omega
    rw [unpackReplyHeader, hmsgType]
    rw [if_pos hfits]
    simp [headerOf, REPLY_HEADER_SIZE, MSG_TYPE_SIZE, List.drop_take, List.take_take]
  rw [unpackReply, hheader]
  rfl

/-! ## What a request requires of the datagrams -/

/-- What stays the same during a call. -/
structure Request (Addr : Type) where
  config : Config
  replicas : List (Replica Addr)
  seq : ℕ

/-- What the replies are compared with. -/
def UdpClient.request (client : UdpClient Addr) : Request Addr :=
  ⟨client.config, client.replicas, client.reqSeqNum.val⟩

namespace Request

variable (req : Request Addr)

/-- The part of a datagram that is read. -/
def cut (data : Bytes) : Bytes := data.take req.config.maxMsgSize

/-- Every datagram is a reply; one for this request comes from the address of a replica, and a
    replica that is not Byzantine names a primary that exists. -/
def Clean (byzantine : Finset Addr) : Event Addr → Prop
  | .datagram sender data => IsReply (req.cut data) ∧
      ((headerOf (req.cut data)).reqSeqNum = req.seq →
        sender ∈ req.replicas.map (·.address) ∧
          (sender ∉ byzantine → (headerOf (req.cut data)).primaryId < req.replicas.length))
  | .retryTimeout => True
  | .requestTimeout => True

/-- Among the received datagrams is this reply of a configured replica to this request. -/
structure Sent (req : Request Addr) (received : List (Addr × Bytes)) (sender : Addr)
    (reply : ReplyHeader × Bytes) : Prop where
  configured : sender ∈ req.replicas.map (·.address)
  seq : reply.1.reqSeqNum = req.seq
  received : ∃ data, (sender, data) ∈ received ∧ unpackReply (req.cut data) = .ok reply

/-- The reply has a quorum among the received datagrams, and its header names the remembered
    primary. -/
def Quorate (received : List (Addr × Bytes)) (client : UdpClient Addr) (reply : Bytes) : Prop :=
  ∃ header, (∃ senders : Finset Addr, 2 * req.config.f + req.config.c + 1 ≤ senders.card ∧
      ∀ sender ∈ senders, req.Sent received sender (header, reply)) ∧
    ∃ primary, client.primary = some primary ∧ req.replicas[header.primaryId]? = some primary

theorem Sent.append {req : Request Addr} {received : List (Addr × Bytes)} {sender : Addr}
    (h : req.Sent received sender reply) (more : List (Addr × Bytes)) :
    req.Sent (received ++ more) sender reply := by
  obtain ⟨data, hmem, hunpack⟩ := h.received
  exact ⟨h.configured, h.seq, data, List.mem_append_left _ hmem, hunpack⟩

end Request

instance [DecidableEq Addr] (req : Request Addr) (byzantine : Finset Addr) :
    DecidablePred (req.Clean byzantine)
  | .datagram _ _ => inferInstanceAs (Decidable (_ ∧ (_ → _ ∧ (_ → _))))
  | .retryTimeout => instDecidableTrue
  | .requestTimeout => instDecidableTrue

/-! ## Looking for a quorum -/

/-- The dictionary of replies: one entry for each address, each backed by what was received. -/
structure RepliesInv (req : Request Addr) (byzantine : Finset Addr)
    (received : List (Addr × Bytes)) (replies : List (Addr × ReplyHeader × Bytes)) : Prop where
  keys : (replies.map (·.1)).Nodup
  sent : ∀ e ∈ replies, req.Sent received e.1 e.2
  primary : ∀ e ∈ replies, e.1 ∉ byzantine → e.2.1.primaryId < req.replicas.length

namespace RepliesInv

variable {req : Request Addr} {byzantine : Finset Addr} {received : List (Addr × Bytes)}
  {replies : List (Addr × ReplyHeader × Bytes)}

theorem nil : RepliesInv req byzantine received [] := ⟨List.nodup_nil, by simp, by simp⟩

theorem append (h : RepliesInv req byzantine received replies) (more : List (Addr × Bytes)) :
    RepliesInv req byzantine (received ++ more) replies :=
  ⟨h.keys, fun e he => (h.sent e he).append more, h.primary⟩

variable [DecidableEq Addr]

/-- A reply to the request goes into the dictionary. -/
theorem set (h : RepliesInv req byzantine received replies) {sender : Addr}
    (hsent : req.Sent received sender reply)
    (hprimary : sender ∉ byzantine → reply.1.primaryId < req.replicas.length) :
    RepliesInv req byzantine received (Dict.set sender reply replies) := by
  refine ⟨Dict.nodup_keys_set h.keys, fun e he => ?_, fun e he => ?_⟩
  · rcases Dict.mem_set he with rfl | he
    · exact hsent
    · exact h.sent e he
  · rcases Dict.mem_set he with rfl | he
    · exact hprimary
    · exact h.primary e he

/-- **A counted quorum** is a quorum of senders, and one of them is correct. -/
theorem exists_senders (h : RepliesInv req byzantine received replies)
    (hbyzantine : byzantine.card ≤ req.config.f)
    (hcount : 2 * req.config.f + req.config.c + 1 ≤ (replies.map (·.2)).countP (· = reply)) :
    (∃ senders : Finset Addr, 2 * req.config.f + req.config.c + 1 ≤ senders.card ∧
        ∀ sender ∈ senders, req.Sent received sender reply) ∧
      reply.1.primaryId < req.replicas.length := by
  obtain ⟨senders, hcard, hmem⟩ := Dict.exists_keys_of_countP h.keys reply
  rw [← hcard] at hcount
  refine ⟨⟨senders, hcount, fun sender hsender => h.sent _ (hmem sender hsender)⟩, ?_⟩
  obtain ⟨correct, hcorrect, hnot⟩ : ∃ a ∈ senders, a ∉ byzantine :=
    Finset.exists_mem_notMem_of_card_lt_card (by omega)
  exact h.primary _ (hmem correct hcorrect) hnot

end RepliesInv

namespace UdpClient

variable {client : UdpClient Addr}

theorem countP_of_quorumReply (h : client.quorumReply = some reply) :
    client.replyQuorum ≤ (client.replies.map (·.2)).countP (· = reply) := by
  obtain ⟨e, hfind, rfl⟩ := Option.map_eq_some_iff.1 h
  have henough := List.find?_some hfind
  rw [← Dict.mem_tally (List.mem_of_find?_eq_some hfind)]
  exact of_decide_eq_true henough

variable [DecidableEq Addr]

/-- **Looking for a quorum** raises nothing; it finds none and changes nothing, or finds one. -/
theorem hasQuorum_cases {req : Request Addr} {byzantine : Finset Addr}
    {received : List (Addr × Bytes)} (hreq : client.request = req)
    (hbyzantine : byzantine.card ≤ req.config.f)
    (h : RepliesInv req byzantine received client.replies) :
    client.hasQuorum = .ok (false, client) ∨
      ∃ reply primary, client.hasQuorum =
          .ok (true, { client with reply := some reply, primary := some primary }) ∧
        req.Quorate received { client with reply := some reply, primary := some primary }
          reply := by
  subst hreq
  unfold hasQuorum
  by_cases hfew : client.replies.length < client.replyQuorum
  · exact Or.inl (if_pos hfew)
  · rw [if_neg hfew]
    rcases hfound : client.quorumReply with - | ⟨header, reply⟩
    · exact Or.inl rfl
    · obtain ⟨hsenders, hlt⟩ := h.exists_senders hbyzantine (countP_of_quorumReply hfound)
      have hprimary : client.replicas[header.primaryId]? = some client.replicas[header.primaryId] :=
        List.getElem?_eq_getElem hlt
      dsimp only
      rw [hprimary]
      exact Or.inr ⟨reply, _, rfl, header, hsenders, _, rfl, hprimary⟩

end UdpClient

/-! ## Calls -/

namespace SendSync

/-- What holds during a call. -/
structure Inv (req : Request Addr) (byzantine : Finset Addr) (call : SendSync Addr) : Prop where
  request : call.client.request = req
  replies : RepliesInv req byzantine call.received call.client.replies
  not_raised : ∀ e, call.outcome ≠ some (.raised e)
  returned : ∀ reply, call.outcome = some (.returned reply) →
    req.Quorate call.received call.client reply

variable {req : Request Addr} {byzantine : Finset Addr} {call call' : SendSync Addr}

theorem inv_start (client : UdpClient Addr) (milli : ℕ) :
    Inv (start client milli).client.request byzantine (start client milli) where
  request := rfl
  replies := .nil
  not_raised := by
    intro e h
    exact absurd h (by simp [start])
  returned := by
    intro reply h
    exact absurd h (by simp [start])

variable [DecidableEq Addr]

theorem Inv.replies_recv (h : Inv req byzantine call) {sender : Addr} {data : Bytes}
    (hclean : req.Clean byzantine (.datagram sender data)) :
    ∃ replies, call.client.recv sender data =
        UdpClient.hasQuorum { call.client with replies := replies } ∧
      RepliesInv req byzantine (call.received ++ [(sender, data)]) replies := by
  obtain ⟨hisReply, hvalid⟩ := hclean
  obtain ⟨hrequest, hreplies, -, -⟩ := h
  subst hrequest
  have hunpack := unpackReply_of_isReply hisReply
  have hreplies := hreplies.append [(sender, data)]
  unfold UdpClient.recv
  rw [show call.client.config.maxMsgSize = call.client.request.config.maxMsgSize from rfl]
  rw [show data.take call.client.request.config.maxMsgSize = call.client.request.cut data from rfl]
  rw [hunpack, ok_bind]
  dsimp only
  by_cases hseq : call.client.reqSeqNum.val = (headerOf (call.client.request.cut data)).reqSeqNum
  · have hpass : call.client.validReply (headerOf (call.client.request.cut data)) = true :=
      decide_eq_true hseq
    rw [if_pos hpass]
    obtain ⟨hconfigured, hprimary⟩ := hvalid hseq.symm
    refine ⟨_, rfl, hreplies.set ⟨hconfigured, hseq.symm, data, ?_, hunpack⟩ hprimary⟩
    simp
  · rw [if_neg (by simpa [UdpClient.validReply] using hseq)]
    exact ⟨_, rfl, hreplies⟩

/-- **Every step keeps the invariant.** -/
theorem Inv.next (h : Inv req byzantine call) (hbyzantine : byzantine.card ≤ req.config.f)
    {event : Event Addr} (hclean : req.Clean byzantine event)
    (hnext : call.next event = some call') : Inv req byzantine call' := by
  unfold SendSync.next at hnext
  split_ifs at hnext
  cases event with
  | datagram sender data =>
    obtain ⟨replies, hrecv, hreplies⟩ := h.replies_recv hclean
    have hrequest : UdpClient.request { call.client with replies := replies } = req := h.request
    dsimp only at hnext
    rcases UdpClient.hasQuorum_cases hrequest hbyzantine hreplies with
      hnone | ⟨reply, primary, hsome, hquorate⟩
    · rw [hrecv, hnone] at hnext
      obtain rfl := Option.some.inj hnext
      exact ⟨hrequest, hreplies, by simp, by simp⟩
    · rw [hrecv, hsome] at hnext
      obtain rfl := Option.some.inj hnext
      refine ⟨hrequest, hreplies, by simp, fun reply' hreply => ?_⟩
      obtain rfl : reply = reply' := by simpa using hreply
      exact hquorate
  | retryTimeout =>
    obtain rfl := Option.some.inj hnext
    refine ⟨h.request, .nil, h.not_raised, fun reply hreply => ?_⟩
    simp_all
  | requestTimeout =>
    obtain rfl := Option.some.inj hnext
    exact ⟨h.request, h.replies, by simp, by simp⟩

omit [DecidableEq Addr] in
theorem id_of_getElem? {replicas : List (Replica Addr)}
    (hids : replicas.map (·.id) = List.range replicas.length) {i : ℕ} {replica : Replica Addr}
    (h : replicas[i]? = some replica) : replica.id = i := by
  have hlt : i < replicas.length := (List.getElem?_eq_some_iff.1 h).1
  have hid : (replicas.map (·.id))[i]? = some replica.id := by rw [List.getElem?_map, h]; rfl
  rw [hids, List.getElem?_range hlt] at hid
  exact (Option.some.inj hid).symm

/-- **The client's quorum.** Take any call in which every datagram is a reply, the replies to its
    request come from addresses of replicas, and the replicas that are not Byzantine, all but at
    most `f`, name a primary that exists. No datagram makes the call raise an exception; a reply is
    only returned after `2f + c + 1` replicas have sent it since the last retry, and the remembered
    primary is the one that these replies name. -/
theorem returned_of_quorum {client : UdpClient Addr} {milli : ℕ}
    (hids : client.replicas.map (·.id) = List.range client.replicas.length)
    (hbyzantine : byzantine.card ≤ client.config.f)
    (h : Machine.Reaches next (fun _ => (start client milli).client.request.Clean byzantine)
      (start client milli) call) :
    (∀ e, call.outcome ≠ some (.raised e)) ∧
      ∀ reply, call.outcome = some (.returned reply) →
        ∃ header, (∃ senders : Finset Addr,
            2 * client.config.f + client.config.c + 1 ≤ senders.card ∧ ∀ sender ∈ senders,
              (start client milli).client.request.Sent call.received sender (header, reply)) ∧
          ∃ primary ∈ client.replicas, call.client.primary = some primary ∧
            primary.id = header.primaryId := by
  have hinv : Inv (start client milli).client.request byzantine call :=
    h.invariant (Inv _ byzantine) (inv_start client milli)
      (fun _ _ _ hinv hclean hnext => hinv.next hbyzantine hclean hnext)
  refine ⟨hinv.not_raised, fun reply hreply => ?_⟩
  obtain ⟨header, hsenders, primary, hprimary, hnamed⟩ := hinv.returned reply hreply
  exact ⟨header, hsenders, primary, List.mem_of_getElem? hnamed, hprimary,
    id_of_getElem? hids hnamed⟩

/-- A client of four replicas, of which one may be Byzantine; replica `i` has the address `10 + i`.
    -/
def clientOfFour : UdpClient ℕ :=
  { config := ⟨1, 0, 64⟩
    replicas := [⟨0, 10⟩, ⟨1, 11⟩, ⟨2, 12⟩, ⟨3, 13⟩]
    reqSeqNum := ⟨1, 0, by decide⟩ }

/-- The reply `[5]` to the first request of `clientOfFour`, which names replica 1 as the primary. -/
def replyOfOne : Bytes := packReply 1 (clientOfFour.reqSeqNum.next 2).val [5]

/-- Replica 3 names a primary that does not exist, and replica 0 sends its reply again after a
    retry. -/
def eventsOfFour : List (Event ℕ) :=
  [.datagram 13 (packReply 9 (clientOfFour.reqSeqNum.next 2).val [6]), .datagram 10 replyOfOne,
    .retryTimeout, .datagram 10 replyOfOne, .datagram 11 replyOfOne, .datagram 12 replyOfOne]

theorem returned_of_quorum_eventsOfFour :
    ∃ call : SendSync ℕ, call.outcome = some (.returned [5]) ∧
      ∃ header, (∃ senders : Finset ℕ, 3 ≤ senders.card ∧ ∀ sender ∈ senders,
          (start clientOfFour 2).client.request.Sent call.received sender (header, [5])) ∧
        ∃ primary ∈ clientOfFour.replicas, call.client.primary = some primary ∧
          primary.id = header.primaryId := by
  obtain ⟨call, hreaches, hreturned⟩ : ∃ call, Machine.Reaches next
      (fun _ => (start clientOfFour 2).client.request.Clean {13}) (start clientOfFour 2) call ∧
      call.outcome = some (.returned [5]) :=
    Machine.exists_reaches eventsOfFour (by decide +kernel)
  exact ⟨call, hreturned, (returned_of_quorum rfl (by decide) hreaches).2 [5] hreturned⟩

/-- One byte from anywhere makes the call raise an exception, and a reply that three addresses send
    is returned although none of them is the address of a replica. -/
theorem foreign_datagrams_accepted :
    (∃ call, Machine.runSteps next (start clientOfFour 2) [.datagram 99 [0]] = some call ∧
        call.outcome = some (.raised .struct)) ∧
      ∃ call, Machine.runSteps next (start clientOfFour 2)
          [.datagram 97 replyOfOne, .datagram 98 replyOfOne, .datagram 99 replyOfOne] = some call ∧
        call.outcome = some (.returned [5]) ∧
        ∀ e ∈ call.received, e.1 ∉ clientOfFour.replicas.map (·.address) :=
  ⟨⟨_, rfl, by decide +kernel⟩, ⟨_, rfl, by decide +kernel, by decide +kernel⟩⟩

end SendSync

end ConcordBft.PyClient
