import ConcordBft.BCStateTran.Handlers

set_option autoImplicit false

/-! # The client (`SimpleClient.cpp`, `ClientReplyMsg.cpp`)

A client sends one request at a time and waits until enough replicas have sent the same reply. What a
replica sends is a byte string; the client trusts its header when it hashes, compares and copies the
reply behind it. `sendRequest` is run on the list of the rounds of its loop: what was received before
a round, and what the clock decides at its end. -/

namespace ConcordBft

open LittleEndian

namespace SimpleClient

open Checked

/-- How the client can stop other than by returning. -/
inductive ClientFailure where
  /-- An assertion. -/
  | assertion
  /-- A read of reply bytes behind the end of the received message. -/
  | readOutsideMessage
deriving DecidableEq, Repr

/-- The configuration; the constructor asserts `fVal >= 1`, and the number of transmissions is divided
    by `clientPeriodicResetThresh`. -/
structure ClientConfig where
  clientId : NodeIdType
  fVal : ℕ
  cVal : ℕ
  clientPeriodicResetThresh : ℕ
  fVal_pos : 1 ≤ fVal
  thresh_pos : 1 ≤ clientPeriodicResetThresh

namespace ClientConfig

/-- `3F + 2C + 1`. -/
def numberOfReplicas (cfg : ClientConfig) : ℕ := 3 * cfg.fVal + 2 * cfg.cVal + 1

def requiredReplies (cfg : ClientConfig) : ℕ := 2 * cfg.fVal + cfg.cVal + 1

end ClientConfig

/-! ## Reply messages -/

/-- `MsgCode::Reply` -/
def REPLY_MSG_TYPE : ℕ := 800

/-- `sizeof(ClientReplyMsgHeader)` -/
def sizeofHeader : ℕ := 16

/-- `maxLegalMsgSize` -/
def maxLegalMsgSize : ℕ := 64 * 1024

/-- `MessageBase`: what a replica sent. -/
structure ReplyMsg where
  senderId : ReplicaId
  body : Bytes
deriving DecidableEq, Repr

namespace ReplyMsg

variable (m : ReplyMsg)

/-- The bytes of the message. -/
def size : ℕ := m.body.length

/-- The header is packed: type, primary, sequence number and length of the reply. -/
def msgType : ℕ := decode (m.body.take 2)

/-- The primary that the reply names. -/
def currentPrimaryId : ReplicaId := decode ((m.body.drop 2).take 2)

/-- The request that is answered. -/
def reqSeqNum : ℕ := decode ((m.body.drop 4).take 8)

/-- The announced length of the reply. -/
def replyLength : ℕ := decode ((m.body.drop 12).take 4)

/-- The bytes from `replyBuf()` on that `replyLength` announces, as far as they are there. -/
def reply : Bytes := (m.body.drop sizeofHeader).take m.replyLength

/-- Are the announced bytes inside of the message? -/
def replyInside : Bool := decide (sizeofHeader + m.replyLength ≤ m.size)

/-- `ToActualMsgType`: the sum of the header size and the length is an unsigned 32-bit number. -/
def ToActualMsgType : Except ClientFailure Bool := do
  require ClientFailure.assertion (m.msgType = REPLY_MSG_TYPE)
  if m.size < sizeofHeader then pure false
  else if m.size < (sizeofHeader + m.replyLength) % 2 ^ 32 then pure false
  else pure true

/-- `debugHash`: the first bytes, up to a multiple of eight, and the exclusive or with the words
    behind them. -/
def debugHash : Except ClientFailure ℕ := do
  let replyLen := m.replyLength
  require ClientFailure.assertion (0 < replyLen)
  let firstWordLen := if replyLen % 8 = 0 then 8 else replyLen % 8
  require ClientFailure.assertion ((replyLen - firstWordLen) % 8 = 0)
  let numberOfWords := (replyLen - firstWordLen) / 8 + 1
  require ClientFailure.readOutsideMessage (m.replyInside = true)
  pure ((List.range (numberOfWords - 1)).foldl
    (fun retVal i => retVal ^^^ decode ((m.reply.drop (firstWordLen + 8 * i)).take 8))
    (decode (m.reply.take firstWordLen)))

/-- `SimpleClientImp::equivalent` -/
def equivalent (r1 r2 : ReplyMsg) : Bool :=
  r1.reqSeqNum == r2.reqSeqNum && r1.currentPrimaryId == r2.currentPrimaryId &&
    r1.replyLength == r2.replyLength && r1.reply == r2.reply

/-- Does the comparison of two messages read reply bytes, and only inside of both? -/
def comparesInside (r1 r2 : ReplyMsg) : Bool :=
  !(r1.reqSeqNum == r2.reqSeqNum && r1.currentPrimaryId == r2.currentPrimaryId &&
    r1.replyLength == r2.replyLength) || r1.replyInside && r2.replyInside

end ReplyMsg

/-! ## The state of the client -/

/-- `replysCertificate(3 * fVal + 2 * cVal + 1, fVal, 2 * fVal + cVal + 1, clientId)` -/
def replyParams (cfg : ClientConfig) : CertificateParams ReplyMsg where
  SelfTrust := false
  SelfIsRequired := false
  numOfReps := cfg.numberOfReplicas
  maxFails := cfg.fVal
  required := cfg.requiredReplies
  selfId := cfg.clientId
  equivalent := ReplyMsg.equivalent

/-- `pendingRequest` is the number of the pending request; the clock and the known primary, which only
    decide when and to whom the request is sent, are left out. `discarded` is not in the source: it
    counts how often the replies were discarded as inconsistent. -/
structure SimpleClientImp where
  replysCertificate : MsgsCertificate ReplyMsg := {}
  msgQueue : List ReplyMsg := []
  pendingRequest : Option ℕ := none
  numberOfTransmissions : ℕ := 0
  discarded : ℕ := 0
deriving DecidableEq, Repr

/-- What `sendRequest` returns: `0` with the reply, `-2` or `-1`. -/
inductive Outcome where
  | replied (reply : Bytes)
  | bufferTooSmall
  | timeout
deriving DecidableEq, Repr

/-- One round of the loop of `sendRequest`. -/
structure Round where
  received : List (ℕ × Bytes)
  timedOut : Bool
  retransmit : Bool
deriving DecidableEq, Repr

namespace SimpleClientImp

variable (cfg : ClientConfig) (st : SimpleClientImp)

/-- `onNewMessage`: the number of the source is cut to 16 bits. -/
def onNewMessage (sourceNode : ℕ) (message : Bytes) : SimpleClientImp :=
  let m : ReplyMsg := { senderId := sourceNode % 2 ^ 16, body := message }
  if cfg.numberOfReplicas ≤ m.senderId then st
  else if maxLegalMsgSize < m.size then st
  else if m.size < 2 then st
  else if m.msgType ≠ REPLY_MSG_TYPE then st
  else if st.pendingRequest.isNone then st
  else { st with msgQueue := st.msgQueue ++ [m] }

/-- `onMessageFromReplica`: the hash is computed for the log. -/
def onMessageFromReplica (msg : ReplyMsg) : Except ClientFailure SimpleClientImp := do
  if ← msg.ToActualMsgType then do
    let _ ← msg.debugHash
    if some msg.reqSeqNum ≠ st.pendingRequest then pure st
    else do
      require ClientFailure.readOutsideMessage
        (st.replysCertificate.msgsFromReplicas.all (fun r => r.2.comparesInside msg) = true)
      let certificate := (st.replysCertificate.addMsg (replyParams cfg) msg msg.senderId).2
      if certificate.isInconsistent (replyParams cfg) then
        pure { st with
          replysCertificate := certificate.resetAndFree
          discarded := st.discarded + 1 }
      else pure { st with replysCertificate := certificate }
  else pure st

/-- A message of the queue: once the certificate is complete it is dropped unread. -/
def processMessage (msg : ReplyMsg) : Except ClientFailure SimpleClientImp :=
  if st.replysCertificate.isComplete then pure st else st.onMessageFromReplica cfg msg

/-- `sendPendingRequest`; to whom the request is sent is left out. -/
def sendPendingRequest : Except ClientFailure SimpleClientImp := do
  require ClientFailure.assertion (st.pendingRequest.isSome = true)
  let numberOfTransmissions := (st.numberOfTransmissions + 1) % 2 ^ 16
  let st := { st with numberOfTransmissions := numberOfTransmissions }
  if numberOfTransmissions % cfg.clientPeriodicResetThresh = 0 then
    pure { st with replysCertificate := st.replysCertificate.resetAndFree }
  else pure st

/-- The client forgets the request. -/
def reset : SimpleClientImp :=
  { st with
    replysCertificate := st.replysCertificate.resetAndFree
    msgQueue := []
    pendingRequest := none
    numberOfTransmissions := 0 }

/-- The end of `sendRequest` with a complete certificate. -/
def deliverReply (lengthOfReplyBuffer : ℕ) : Except ClientFailure (SimpleClientImp × Outcome) :=
  match st.replysCertificate.bestCorrectMsg (replyParams cfg) with
  | none => .error .assertion
  | some correctReply => do
      if correctReply.replyLength ≤ lengthOfReplyBuffer then do
        require ClientFailure.readOutsideMessage (correctReply.replyInside = true)
        pure (st.reset, .replied correctReply.reply)
      else pure (st.reset, .bufferTooSmall)

/-- The loop of `sendRequest`; without an outcome it is still waiting after the given rounds. -/
def waitForReply (lengthOfReplyBuffer : ℕ) : List Round → SimpleClientImp →
    Except ClientFailure (SimpleClientImp × Option Outcome)
  | [], st => pure (st, none)
  | round :: rest, st => do
      let st := round.received.foldl (fun st m => st.onNewMessage cfg m.1 m.2) st
      let st ← st.msgQueue.foldlM (processMessage cfg) { st with msgQueue := [] }
      if st.replysCertificate.isComplete then do
        let r ← st.deliverReply cfg lengthOfReplyBuffer
        pure (r.1, some r.2)
      else if round.timedOut then
        pure (st.reset, some .timeout)
      else if round.retransmit then do
        let st ← st.sendPendingRequest cfg
        waitForReply lengthOfReplyBuffer rest st
      else waitForReply lengthOfReplyBuffer rest st

/-- `sendRequest` -/
def sendRequest (reqSeqNum lengthOfReplyBuffer : ℕ) (rounds : List Round) :
    Except ClientFailure (SimpleClientImp × Option Outcome) := do
  require ClientFailure.assertion (st.replysCertificate.isEmpty = true)
  require ClientFailure.assertion (st.msgQueue = [])
  require ClientFailure.assertion (st.pendingRequest = none)
  require ClientFailure.assertion (st.numberOfTransmissions = 0)
  let st ← sendPendingRequest cfg { st with pendingRequest := some reqSeqNum }
  waitForReply cfg lengthOfReplyBuffer rounds st

end SimpleClientImp

end SimpleClient

end ConcordBft
