import ConcordBft.Lib.Checked
import ConcordBft.Lib.Dict
import ConcordBft.Lib.LittleEndian
import ConcordBft.Types

set_option autoImplicit false

/-! # The Python client (`bft_client.py`, `bft_msgs.py`)

`sendSync` sends a request and reads datagrams until `2f + c + 1` senders have sent the same reply.
What the call does with one datagram, with the timeout of a round and with the timeout of the
request is one step of `SendSync.next`; an address is any type, since the client only compares
addresses. -/

namespace ConcordBft

open LittleEndian

namespace PyClient

/-- What an operation of Python raises. -/
inductive Exception where
  /-- `struct.error` -/
  | struct
  /-- `bft_msgs.MsgError` -/
  | msg
  /-- `IndexError` -/
  | index
deriving DecidableEq, Repr

/-! ## Messages -/

/-- The type of a reply message. -/
def REPLY_MSG_TYPE : ℕ := 800

/-- `struct.calcsize("<H")` -/
def MSG_TYPE_SIZE : ℕ := 2

/-- `struct.calcsize("<HQL")` -/
def REPLY_HEADER_SIZE : ℕ := 14

/-- The header of a reply. -/
structure ReplyHeader where
  primaryId : ℕ
  reqSeqNum : ℕ
  length : ℕ
deriving DecidableEq, Repr

/-- `struct.unpack` only takes a buffer of the exact size. -/
def unpackMsgType (data : Bytes) : Except Exception ℕ :=
  let field := data.take MSG_TYPE_SIZE
  if field.length = MSG_TYPE_SIZE then .ok (decode field) else .error .struct

def unpackReplyHeader (data : Bytes) : Except Exception ReplyHeader := do
  let msgType ← unpackMsgType data
  if msgType ≠ REPLY_MSG_TYPE then
    .error .msg
  else
    let header := (data.take (REPLY_HEADER_SIZE + MSG_TYPE_SIZE)).drop MSG_TYPE_SIZE
    if header.length = REPLY_HEADER_SIZE then
      .ok ⟨decode (header.take 2), decode ((header.drop 2).take 8), decode (header.drop 10)⟩
    else
      .error .struct

/-- A reply and its header. -/
def unpackReply (data : Bytes) : Except Exception (ReplyHeader × Bytes) := do
  let header ← unpackReplyHeader data
  .ok (header, data.drop (MSG_TYPE_SIZE + REPLY_HEADER_SIZE))

/-- The bytes of a reply. -/
def packReply (primaryId reqSeqNum : ℕ) (msg : Bytes) : Bytes :=
  encode 2 REPLY_MSG_TYPE ++ encode 2 primaryId ++
    encode 8 reqSeqNum ++ encode 4 msg.length ++ msg

/-! ## Sequence numbers -/

/-- `self.max_count` -/
def maxCount : ℕ := 0x3FFFFF

/-- `val` asserts the bound on the count. -/
structure ReqSeqNum where
  timeSinceEpochMilli : ℕ
  count : ℕ
  count_le : count ≤ maxCount
deriving DecidableEq

namespace ReqSeqNum

def val (n : ReqSeqNum) : ℕ := n.timeSinceEpochMilli <<< 22 ||| n.count

/-- The next number when the clock shows `milli`. -/
def next (n : ReqSeqNum) (milli : ℕ) : ReqSeqNum :=
  if n.timeSinceEpochMilli < milli then
    ⟨milli, 0, Nat.zero_le _⟩
  else if hmax : n.count = maxCount then
    ⟨n.timeSinceEpochMilli + 1, 0, Nat.zero_le _⟩
  else
    ⟨n.timeSinceEpochMilli, n.count + 1, lt_of_le_of_ne n.count_le hmax⟩

end ReqSeqNum

/-! ## The client -/

/-- The parameters of a client. -/
structure Config where
  f : ℕ
  c : ℕ
  maxMsgSize : ℕ
deriving DecidableEq, Repr

variable {Addr : Type} [DecidableEq Addr]

/-- A replica with its `(ip, port)`. -/
structure Replica (Addr : Type) where
  id : ℕ
  address : Addr
deriving DecidableEq, Repr

/-- The part of `UdpClient` that receiving reads and writes. -/
structure UdpClient (Addr : Type) where
  config : Config
  replicas : List (Replica Addr)
  reqSeqNum : ReqSeqNum
  replies : List (Addr × ReplyHeader × Bytes) := []
  primary : Option (Replica Addr) := none
  reply : Option Bytes := none
  retries : ℕ := 0
deriving DecidableEq

namespace UdpClient

variable (client : UdpClient Addr)

def replyQuorum : ℕ := 2 * client.config.f + client.config.c + 1

def resetOnRetry : UdpClient Addr :=
  { client with replies := [], primary := none, retries := client.retries + 1 }

/-- A new request starts without replies. -/
def resetOnNewRequest : UdpClient Addr := { client with replies := [], reply := none, retries := 0 }

def validReply (header : ReplyHeader) : Bool := client.reqSeqNum.val = header.reqSeqNum

/-- The first reply with enough senders, in the order of `reply_counts.items()`. -/
def quorumReply : Option (ReplyHeader × Bytes) :=
  ((Dict.tally (client.replies.map (·.2))).find? fun e => client.replyQuorum ≤ e.2).map (·.1)

/-- The primary of the quorum is looked up by its position in the list of replicas. -/
def hasQuorum : Except Exception (Bool × UdpClient Addr) :=
  if client.replies.length < client.replyQuorum then
    .ok (false, client)
  else
    match client.quorumReply with
    | none => .ok (false, client)
    | some (header, reply) =>
      match client.replicas[header.primaryId]? with
      | none => .error .index
      | some primary => .ok (true, { client with reply := some reply, primary := some primary })

/-- One turn of `recv`; `recvfrom` cuts a datagram at the maximal size of a message. -/
def recv (sender : Addr) (datagram : Bytes) : Except Exception (Bool × UdpClient Addr) := do
  let (header, reply) ← unpackReply (datagram.take client.config.maxMsgSize)
  if client.validReply header then
    hasQuorum { client with replies := Dict.set sender (header, reply) client.replies }
  else
    hasQuorum client

end UdpClient

/-! ## A call of `sendSync` -/

/-- What the client waits for. -/
inductive Event (Addr : Type) where
  | datagram (sender : Addr) (data : Bytes)
  /-- `retry_timeout_milli` has passed since the last transmission. -/
  | retryTimeout
  /-- `req_timeout_milli` has passed since the call. -/
  | requestTimeout
deriving DecidableEq, Repr

/-- How a request ends. -/
inductive Outcome where
  | returned (reply : Bytes)
  | raised (e : Exception)
  /-- `trio.TooSlowError` -/
  | tooSlow
deriving DecidableEq, Repr

/-- A call of `sendSync`, with the datagrams that were received since the last transmission. -/
structure SendSync (Addr : Type) where
  client : UdpClient Addr
  received : List (Addr × Bytes) := []
  outcome : Option Outcome := none
deriving DecidableEq

namespace SendSync

/-- The call before its first datagram. -/
def start (client : UdpClient Addr) (milli : ℕ) : SendSync Addr :=
  { client :=
      UdpClient.resetOnNewRequest { client with reqSeqNum := client.reqSeqNum.next milli } }

/-- A quorum cancels the round before the next datagram is read, and the loop ends with the reply.
    -/
def next (call : SendSync Addr) (event : Event Addr) : Option (SendSync Addr) :=
  if call.outcome.isSome then
    none
  else
    match event with
    | .datagram sender data =>
      let received := call.received ++ [(sender, data)]
      match call.client.recv sender data with
      | .error e => some { call with received := received, outcome := some (.raised e) }
      | .ok (quorum, client) =>
        some ⟨client, received, if quorum then client.reply.map .returned else none⟩
    | .retryTimeout => some { call with client := call.client.resetOnRetry, received := [] }
    | .requestTimeout => some { call with outcome := some .tooSlow }

end SendSync

end PyClient

end ConcordBft
