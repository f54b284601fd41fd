import ConcordBft.Lib.LittleEndian
import ConcordBft.Messages

set_option autoImplicit false

/-! # Clients, replies and the application (`ClientsManager.cpp`)

For every client the engine remembers the number of the latest reply and the request that is being
agreed on. The latest reply itself is stored in reserved pages, which belong to the replicated state:
they are part of every checkpoint. A reply message is split over the pages of its client; the pages of
an old, longer reply after the last page of a new one keep their contents. -/

namespace ConcordBft

open Checked

/-- `sizeof(ClientReplyMsgHeader)` -/
def sizeOfClientReplyMsgHeader : ℕ := 16

/-- The largest reply message in bytes. -/
def maxReplyMessageSize : ℕ := 8192

/-- The size of a page in bytes. -/
def sizeOfReservedPage : ℕ := 4096

/-! ## Reserved pages -/

/-- The bytes of the reserved pages, by page id and offset. Pages that were never written are
    zero. -/
abbrev ReservedPages := ℕ → ℕ → UInt8

/-- The page is padded with zeros. -/
def ReservedPages.saveReservedPage (pages : ReservedPages) (reservedPageId : ℕ) (inReservedPage : Bytes) :
    ReservedPages :=
  Function.update pages reservedPageId fun offset => inReservedPage.getD offset 0

/-- The first bytes of a page. -/
def ReservedPages.loadReservedPage (pages : ReservedPages) (reservedPageId copyLength : ℕ) : Bytes :=
  (List.range copyLength).map (pages reservedPageId)

/-- What is known about a client. -/
structure ClientInfo where
  currentPendingRequest : ReqId := 0
  lastSeqNumberOfReply : ReqId := 0
deriving DecidableEq, Repr

/-- A reply to a client. -/
structure ClientReplyMsg where
  currentPrimaryId : ReplicaId
  reqSeqNum : ReqId
  reply : Bytes
deriving DecidableEq, Repr

/-- `MsgCode::Reply` -/
def ClientReplyMsg.msgCode : ℕ := 800

/-- `ClientReplyMsgHeader`, packed: fields of 2, 2, 8 and 4 bytes. -/
structure ClientReplyMsgHeader where
  msgType : ℕ
  currentPrimaryId : ℕ
  reqSeqNum : ReqId
  replyLength : ℕ
deriving DecidableEq, Repr

/-- The field of `width` bytes at an offset. -/
def fieldAt (bytes : ℕ → UInt8) (offset width : ℕ) : ℕ :=
  LittleEndian.decode ((List.range width).map fun i => bytes (offset + i))

/-- The header at the front of some memory. -/
def ClientReplyMsgHeader.ofBytes (bytes : ℕ → UInt8) : ClientReplyMsgHeader :=
  ⟨fieldAt bytes 0 2, fieldAt bytes 2 2, UInt64.ofNat (fieldAt bytes 4 8), fieldAt bytes 12 4⟩

/-- The header and the reply. -/
def ClientReplyMsg.body (m : ClientReplyMsg) : Bytes :=
  LittleEndian.encode 2 msgCode ++ LittleEndian.encode 2 m.currentPrimaryId ++
    LittleEndian.encode 8 m.reqSeqNum.toNat ++ LittleEndian.encode 4 m.reply.length ++ m.reply

/-- The clients and the pages with their replies. -/
structure ClientsManager where
  indexToClientInfo : NodeIdType → ClientInfo := fun _ => {}
  reservedPages : ReservedPages := fun _ _ => 0

namespace ReplicaConfig

variable (cfg : ReplicaConfig) (clientId : NodeIdType)

def isValidClient : Bool :=
  cfg.numberOfReplicas ≤ clientId && clientId < cfg.numberOfReplicas + cfg.numOfClientProxies

/-- The pages that a largest reply takes. -/
def reservedPagesPerClient : ℕ :=
  maxReplyMessageSize / sizeOfReservedPage +
    if maxReplyMessageSize % sizeOfReservedPage ≠ 0 then 1 else 0

/-- The first page of a client. -/
def firstPageId : ℕ := (clientId - cfg.numberOfReplicas) * reservedPagesPerClient

end ReplicaConfig

namespace ClientsManager

variable (cfg : ReplicaConfig) (cm : ClientsManager) (clientId : NodeIdType)

def seqNumberOfLastReplyToClient : ReqId := (cm.indexToClientInfo clientId).lastSeqNumberOfReply

/-- Changes what is known about one client. -/
def updateClient (f : ClientInfo → ClientInfo) : ClientsManager :=
  { cm with indexToClientInfo :=
      Function.update cm.indexToClientInfo clientId (f (cm.indexToClientInfo clientId)) }

def noPendingAndRequestCanBecomePending (reqSeqNum : ReqId) : Bool :=
  (cm.indexToClientInfo clientId).currentPendingRequest == 0 &&
    (cm.indexToClientInfo clientId).lastSeqNumberOfReply < reqSeqNum

def addPendingRequest (reqSeqNum : ReqId) : Except Failure ClientsManager := do
  Assert ((cm.indexToClientInfo clientId).lastSeqNumberOfReply < reqSeqNum)
  Assert ((cm.indexToClientInfo clientId).currentPendingRequest < reqSeqNum)
  pure (cm.updateClient clientId fun c => { c with currentPendingRequest := reqSeqNum })

/-- The request of the client was executed. -/
def removePendingRequestOfClient : ClientsManager :=
  cm.updateClient clientId fun c => { c with currentPendingRequest := 0 }

/-- All pending requests are forgotten. -/
def clearAllPendingRequests : ClientsManager :=
  { cm with indexToClientInfo := fun i =>
      { cm.indexToClientInfo i with currentPendingRequest := 0 } }

/-- How many pages a message of the given size takes. -/
def numOfPages (size : ℕ) : ℕ :=
  size / sizeOfReservedPage + if size % sizeOfReservedPage ≠ 0 then 1 else 0

/-- How many bytes of the message the page `i` holds. -/
def sizePage (size i : ℕ) : ℕ :=
  if i < numOfPages size - 1 then sizeOfReservedPage
  else if size % sizeOfReservedPage ≠ 0 then size % sizeOfReservedPage else sizeOfReservedPage

/-- Writes the bytes of a message to the pages from `firstPageId` on. -/
def saveReply (pages : ReservedPages) (firstPageId : ℕ) (body : Bytes) : ReservedPages :=
  (List.range (numOfPages body.length)).foldl (fun pages i =>
    pages.saveReservedPage (firstPageId + i)
      ((body.drop (i * sizeOfReservedPage)).take (sizePage body.length i))) pages

/-- Reads a message of the given size. -/
def loadReply (pages : ReservedPages) (firstPageId size : ℕ) : Bytes :=
  (List.range (numOfPages size)).flatMap fun i =>
    pages.loadReservedPage (firstPageId + i) (sizePage size i)

/-- The primary is not stored: it is set in the message that is returned. -/
def allocateNewReplyMsgAndWriteToStorage (requestSeqNum : ReqId) (currentPrimaryId : ReplicaId)
    (reply : Bytes) : Except Failure (ClientsManager × ClientReplyMsg) := do
  Assert ((cm.indexToClientInfo clientId).lastSeqNumberOfReply < requestSeqNum)
  let cm := cm.updateClient clientId fun c => { c with lastSeqNumberOfReply := requestSeqNum }
  let r : ClientReplyMsg := ⟨0, requestSeqNum, reply⟩
  let pages := saveReply cm.reservedPages (cfg.firstPageId clientId) r.body
  pure ({ cm with reservedPages := pages }, { r with currentPrimaryId := currentPrimaryId })

def allocateMsgWithLatestReply (currentPrimaryId : ReplicaId) : Except Failure ClientReplyMsg := do
  Assert ((cm.indexToClientInfo clientId).lastSeqNumberOfReply ≠ 0)
  let firstPageId := cfg.firstPageId clientId
  let replyHeader := ClientReplyMsgHeader.ofBytes (cm.reservedPages firstPageId)
  Assert (replyHeader.msgType = ClientReplyMsg.msgCode)
  Assert (replyHeader.currentPrimaryId = 0)
  Assert (0 < replyHeader.replyLength)
  Assert (replyHeader.replyLength + sizeOfClientReplyMsgHeader ≤ maxReplyMessageSize)
  let replyMsgSize := sizeOfClientReplyMsgHeader + replyHeader.replyLength
  let body := loadReply cm.reservedPages firstPageId replyMsgSize
  let header := ClientReplyMsgHeader.ofBytes fun i => body.getD i 0
  pure ⟨currentPrimaryId, header.reqSeqNum, body.drop sizeOfClientReplyMsgHeader⟩

/-- What `loadInfoFromReservedPages` does for one client. -/
def loadClient (pages : ReservedPages) (clientId : NodeIdType) (c : ClientInfo) : ClientInfo :=
  let replyHeader := ClientReplyMsgHeader.ofBytes (pages (cfg.firstPageId clientId))
  { lastSeqNumberOfReply := replyHeader.reqSeqNum
    currentPendingRequest :=
      if c.currentPendingRequest ≤ replyHeader.reqSeqNum then 0 else c.currentPendingRequest }

/-- The assertions of `loadInfoFromReservedPages` about the header in the first page of a client. -/
def legalHeader (replyHeader : ClientReplyMsgHeader) : Bool :=
  (replyHeader.msgType == 0 || replyHeader.msgType == ClientReplyMsg.msgCode) &&
    replyHeader.currentPrimaryId == 0 &&
    decide (replyHeader.replyLength + sizeOfClientReplyMsgHeader ≤ maxReplyMessageSize)

/-- The clients in the order of their indexes. -/
def clients : List NodeIdType :=
  (List.range cfg.numOfClientProxies).map fun k => cfg.numberOfReplicas + k

def loadInfoFromReservedPages : Except Failure ClientsManager := do
  Assert (∀ i ∈ clients cfg, legalHeader
    (ClientReplyMsgHeader.ofBytes (cm.reservedPages (cfg.firstPageId i))) = true)
  pure { cm with indexToClientInfo := fun i =>
    if cfg.isValidClient i then loadClient cfg cm.reservedPages i (cm.indexToClientInfo i)
    else cm.indexToClientInfo i }

end ClientsManager

/-! ## The application (`RequestsHandler`) -/

/-- The arguments of `execute`. `outReply` and `outActualReplySize` are the contents of the reply
    buffer and of the length variable before the call. -/
structure ExecuteArgs where
  clientId : NodeIdType
  sequenceNum : SeqNum
  readOnly : Bool
  request : Bytes
  maxReplySize : ℕ
  outReply : Bytes
  outActualReplySize : ℕ
deriving DecidableEq, Repr

/-- What `execute` leaves behind. -/
structure ExecuteResult (App : Type) where
  app : App
  error : Int
  outReply : Bytes
  outActualReplySize : ℕ

/-- The application is a function of its state and of the arguments of `execute`. -/
structure RequestsHandler (App : Type) where
  execute : App → ExecuteArgs → ExecuteResult App

/-! ## Executing requests -/

/-- What the execution of requests reads and writes. `calls` is the history of the calls of
    `execute`, and `executed` that of the executed requests with their clients, numbers and replies;
    the newest come first. -/
structure Execution (App : Type) where
  app : App
  clientsManager : ClientsManager := {}
  replyBuffer : Bytes
  calls : List ExecuteArgs := []
  executed : List (NodeIdType × ReqId × Bytes) := []

/-- The two hexadecimal digits of a byte. -/
def hexDigits (b : UInt8) : Bytes :=
  let digit := fun (n : ℕ) => (if n < 10 then 48 + n else 87 + n).toUInt8
  [digit (b.toNat / 16), digit (b.toNat % 16)]

/-- `atoh` -/
def atoh (bin : Bytes) : Bytes := bin.flatMap hexDigits

/-- `memcpy` to the front of a buffer -/
def memcpy (buffer data : Bytes) : Bytes := data ++ buffer.drop data.length

namespace Execution

variable {App : Type}

/-- One round of the loop of `executeRequestsInPrePrepareMsg`. The signature of the full commit proof
    is handed to the application as the contents of the reply buffer. -/
def executeRequest (cfg : ReplicaConfig) (handler : RequestsHandler App) (seqNum : SeqNum)
    (currentPrimary : ReplicaId) (thresholSignature : Option Bytes) (x : Execution App)
    (req : ClientRequestMsg) : Except Failure (Execution App × Option ClientReplyMsg) :=
  let clientId := req.clientProxyId
  if cfg.isValidClient clientId = false then pure (x, none)
  else if req.requestSeqNum ≤ x.clientsManager.seqNumberOfLastReplyToClient clientId then do
    let replyMsg ← x.clientsManager.allocateMsgWithLatestReply cfg clientId currentPrimary
    pure (x, some replyMsg)
  else
    match thresholSignature with
    | none => .error .noFullProof
    | some sigBuf => do
        let args : ExecuteArgs := ⟨clientId, seqNum, req.isReadOnly, req.request,
          maxReplyMessageSize - sizeOfClientReplyMsgHeader, memcpy x.replyBuffer (atoh sigBuf),
          sigBuf.length * 2⟩
        let result := handler.execute x.app args
        Assert (result.error = 0)
        Assert (0 < result.outActualReplySize)
        let reply := result.outReply.take result.outActualReplySize
        let (cm, replyMsg) ← x.clientsManager.allocateNewReplyMsgAndWriteToStorage cfg clientId
          req.requestSeqNum currentPrimary reply
        let x : Execution App := ⟨result.app, cm.removePendingRequestOfClient clientId,
          result.outReply, args :: x.calls, (clientId, req.requestSeqNum, reply) :: x.executed⟩
        pure (x, some replyMsg)

/-- The loop over the requests of a PrePrepare; returns the replies in the order they are sent. -/
def executeRequests (cfg : ReplicaConfig) (handler : RequestsHandler App) (seqNum : SeqNum)
    (currentPrimary : ReplicaId) (thresholSignature : Option Bytes) :
    List ClientRequestMsg → Execution App →
      Except Failure (Execution App × List (NodeIdType × ClientReplyMsg))
  | [], x => pure (x, [])
  | req :: rest, x => do
      let (x, reply) ← executeRequest cfg handler seqNum currentPrimary thresholSignature x req
      let (x, replies) ← executeRequests cfg handler seqNum currentPrimary thresholSignature rest x
      pure (x, (reply.map fun m => (req.clientProxyId, m)).toList ++ replies)

end Execution

end ConcordBft
