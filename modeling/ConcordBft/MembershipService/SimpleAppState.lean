import ConcordBft.MembershipService.Json
import ConcordBft.Types

set_option autoImplicit false

/-! # The membership service (`tests/membership_service/replica.cpp`)

`SimpleAppState::execute` reads and updates the documents of a database. A request is a JSON object
with a `Mode`, which names a document; the other fields depend on the mode. The reply is copied to the
buffer of the caller by `strcpy`, that is with a zero byte behind it.

The database is a store of documents by their name. A document has its name as `_id` and a revision as
`_rev`; it is only replaced by a document with the same revision. The parser of JSON and the choice of
new revisions are parameters. -/

namespace ConcordBft.MembershipService

open Checked

/-- What is used of the libraries: what `parse` leaves in the object, whether it succeeds or not, and
    the revision that the database gives to a document. -/
structure Libraries where
  parse : List Char → Object
  newRev : String → Object → String

/-! ## The database (`couchdbxx.hpp`) -/

/-- The answers to `doc("global_membership_service", name)`. -/
structure CouchDB where
  doc : String → Object

/-- The text of the document is sent to the database. It is refused if it is not JSON, if one of the
    two reserved fields is not a string, or if the revision is not the current one. -/
def CouchDB.put (lib : Libraries) (couch : CouchDB) (body : Object) : CouchDB :=
  match body.string? "_id", body.string? "_rev" with
  | some id, some rev =>
    if body.noEmptyKeys = true ∧ (couch.doc id).string? "_rev" = some rev then
      ⟨Function.update couch.doc id (body.set "_rev" (.string (lib.newRev id body)))⟩
    else couch
  | _, _ => couch

/-! ## The documents -/

/-- The modes, each with the document of the same name. -/
inductive Mode where
  | public_keys
  | quorum_size
  | byzantine_groups
  | super_leafs
  | emulators
deriving DecidableEq, Repr

namespace Mode

/-- A mode as requests and documents spell it. -/
def name : Mode → String
  | .public_keys => "public_keys"
  | .quorum_size => "quorum_size"
  | .byzantine_groups => "byzantine_groups"
  | .super_leafs => "super_leafs"
  | .emulators => "emulators"

/-- The field of a request that has the id. -/
def idField : Mode → String
  | .public_keys | .quorum_size | .byzantine_groups => "BGID"
  | .super_leafs | .emulators => "SLID"

/-- The mode that a text spells. -/
def ofName (s : String) : Option Mode :=
  [public_keys, quorum_size, byzantine_groups, super_leafs, emulators].find? fun m => m.name == s

theorem ofName_eq_some_iff {s : String} {m : Mode} : ofName s = some m ↔ s = m.name := by
  constructor
  · intro h
    have hname := List.find?_some h
    exact (by simpa using hname : m.name = s).symm
  · rintro rfl
    cases m <;> decide

/-- What is taken from an update before the document is read. -/
def certificate (mode : Mode) (request : Object) : Except Fault Unit :=
  match mode with
  | .quorum_size => do
      let _ ← request.getString "quorum_cert"
  | .public_keys => do
      let keys ← request.getObject "keys"
      let _ ← keys.getString "certificate_msp"
  | .emulators => do
      let _ ← request.getString "cert"
  | .byzantine_groups | .super_leafs => pure ()

/-- The object that an update stores under its id. -/
def subJson (mode : Mode) (request : Object) (fullCommitProofMessage : String) :
    Except Fault Object :=
  match mode with
  | .quorum_size => do
      let size ← request.getString "size"
      let cycle ← request.getString "cycle"
      let cert ← request.getString "quorum_cert"
      pure (((Object.set [] "size" (.string size)).set "cycle" (.string cycle)).set "quorum_cert"
        (.string cert))
  | .public_keys => request.getObject "keys"
  | .byzantine_groups => do
      let ip ← request.getString "IP"
      pure ((Object.set [] "leader_ip" (.string ip)).set "cert" (.string fullCommitProofMessage))
  | .super_leafs => do
      let ip ← request.getString "IP"
      pure ((Object.set [] "monitor_ip" (.string ip)).set "cert" (.string fullCommitProofMessage))
  | .emulators => do
      let ip ← request.getArray "ip"
      let cert ← request.getString "cert"
      pure ((Object.set [] "ip" (.array ip)).set "cert" (.string cert))

end Mode

/-! ## Updates -/

/-- The entries of the old document that are copied to the new one. -/
def isCopied (idToChange key : String) : Bool := key != "_id" && key != "_rev" && key != idToChange

/-- Copies the other entries of a document. -/
def copyEntries (o : Object) (idToChange : String) : List (String × Value) → Object →
    Except Fault Object
  | [], body => pure body
  | kv :: rest, body =>
    if isCopied idToChange kv.1 then do
      let sub ← o.getObject kv.1
      copyEntries o idToChange rest (body.set kv.1 (.object sub))
    else copyEntries o idToChange rest body

/-- An update of the document of a mode. -/
def update (lib : Libraries) (couch : CouchDB) (mode : Mode) (request : Object)
    (fullCommitProofMessage : String) : Except Fault CouchDB := do
  mode.certificate request
  let o := couch.doc mode.name
  let rev ← o.getString "_rev"
  let body := (Object.set [] "_id" (.string mode.name)).set "_rev" (.string rev)
  let idToChange ← request.getString mode.idField
  let body ← copyEntries o idToChange o body
  let sub ← mode.subJson request fullCommitProofMessage
  pure (couch.put lib (body.set idToChange (.object sub)))

/-- `reply_msg_json` -/
def replyMsgJson (fullCommitProofMessage : String) : List Char :=
  Object.json ((Object.set [] "Status" (.string "OK")).set "Global_Cert"
    (.string fullCommitProofMessage))

/-! ## Reads -/

/-- A read of a document other than the emulators. -/
def readDocument (couch : CouchDB) (mode : Mode) (request : Object) : Except Fault (List Char) := do
  let id ← request.getString mode.idField
  let o ← (couch.doc mode.name).getObject id
  pure (Object.json o)

/-- `strtol` stops at the first character that is not a digit and does not leave the range of `long`. -/
def strtol (s : List Char) : ℤ :=
  let digits (l : List Char) : ℤ :=
    (l.takeWhile Char.isDigit).foldl (fun n c => n * 10 + ((c.toNat : ℤ) - 48)) 0
  match s.dropWhile isSpace with
  | '-' :: l => max (-(2 ^ 63)) (-digits l)
  | '+' :: l => min (2 ^ 63 - 1) (digits l)
  | l => min (2 ^ 63 - 1) (digits l)

/-- `atoi`: the lowest 32 bits of `strtol`. -/
def atoi (s : String) : ℤ := (strtol s.toList).bmod (2 ^ 32)

/-- The loop that goes up `height2` times; it returns `parent` and `parent_to_exclude`. -/
def climb (topology : Object) : (fuel : ℕ) → (height2 : ℤ) → (parent parentToExclude : String) →
    Except Fault (String × String)
  | fuel, height2, parent, parentToExclude =>
    if height2 = 0 then pure (parent, parentToExclude)
    else
      match fuel with
      | 0 => .error .outOfFuel
      | fuel + 1 => do
          let node ← topology.getObject parent
          let up ← node.getString "parent"
          climb topology fuel (height2 - 1) up parent

/-- The strings that `has<string>(0)`, `has<string>(1)`, … find. -/
def leadingStrings : List Value → List String
  | .string s :: rest => s :: leadingStrings rest
  | _ => []

/-- The loop of the breadth-first search, until a node without children is in front. -/
def descend (topology : Object) (parentToExclude : String) : (fuel : ℕ) → (queue : List String) →
    Except Fault (List String)
  | _, [] => pure []
  | 0, _ :: _ => .error .outOfFuel
  | fuel + 1, parent :: rest => do
      let node ← topology.getObject parent
      let children ← node.getArray "children"
      let strings := leadingStrings children
      if strings = [] then pure (parent :: rest)
      else
        descend topology parentToExclude fuel
          (rest ++ strings.filter fun s => s != parentToExclude)

/-- `topology.get<Object>(node).get<string>("parent")` -/
def parentOf (topology : Object) (node : String) : Except Fault String := do
  let o ← topology.getObject node
  o.getString "parent"

/-- The loop that collects the emulators of the nodes in the queue, by their parents. -/
def collect (topology emulators : Object) (slid : String) : (queue : List String) → (pare : String) →
    (diffParents : Bool) → (subJson finalJson : Object) → Except Fault Object
  | [], pare, diffParents, subJson, finalJson =>
    pure (if diffParents then finalJson else finalJson.set pare (.object subJson))
  | node :: rest, pare, diffParents, subJson, finalJson => do
      let up ← parentOf topology node
      if pare = up then
        if node = slid then collect topology emulators slid rest pare diffParents subJson finalJson
        else do
          let e ← emulators.getObject node
          collect topology emulators slid rest pare diffParents (subJson.set node (.object e)) finalJson
      else do
        let e ← emulators.getObject node
        collect topology emulators slid rest up true (Object.set [] node (.object e))
          (finalJson.set pare (.object subJson))

/-- The reply to a read above the root. -/
def heightError : String := "Error height is greater than max height"

/-- The emulators of the nodes that the search below an ancestor of `slid` leaves in its queue. -/
def walk (fuel : ℕ) (topology emulators : Object) (slid : String) (height2 : ℤ) :
    Except Fault (List Char) := do
  let (parent, parentToExclude) ← climb topology fuel height2 slid ""
  let queue ← descend topology parentToExclude fuel [parent]
  match queue with
  | [] => .error .emptyQueue
  | front :: _ => do
      let pare ← parentOf topology front
      let finalJson ← collect topology emulators slid queue pare false [] []
      pure (Object.json finalJson)

/-- The emulators of a virtual node. -/
def readEmulators (fuel : ℕ) (couch : CouchDB) (request : Object) : Except Fault (List Char) := do
  let topology := couch.doc "configuration"
  let emulators := couch.doc "emulators"
  let slid ← request.getString "SLID"
  let height ← request.getString "height"
  let maxHeight ← topology.getString "max_height"
  if maxHeight < height then pure heightError.toList
  else
    let height2 := atoi height
    if height2 = 0 then do
      let e ← emulators.getObject slid
      pure (Object.json e)
    else walk fuel topology emulators slid height2

/-! ## Requests -/

/-- After `execute`: the database, the text that was copied to the reply buffer, and
    `outActualReplySize`. -/
structure Outcome where
  couch : CouchDB
  reply : Option (List Char)
  outActualReplySize : ℕ

/-- `SimpleAppState::execute`. The buffer holds `outActualReplySize` bytes when it is called. -/
def execute (lib : Libraries) (fuel : ℕ) (couch : CouchDB) (readOnly : Bool) (request : List Char)
    (outReply : List Char) (outActualReplySize : ℕ) : Except Fault Outcome := do
  let requestJson := lib.parse request
  let mode ← requestJson.getString "Mode"
  if readOnly then
    match Mode.ofName mode with
    | none => pure ⟨couch, none, outActualReplySize⟩
    | some .emulators => do
        let text ← readEmulators fuel couch requestJson
        pure ⟨couch, some text, text.length⟩
    | some m => do
        let text ← readDocument couch m requestJson
        pure ⟨couch, some text, text.length⟩
  else
    let fullCommitProofMessage := String.ofList (outReply.take outActualReplySize)
    match Mode.ofName mode with
    | none => pure ⟨couch, none, outActualReplySize⟩
    | some m => do
        let couch ← update lib couch m requestJson fullCommitProofMessage
        let text := replyMsgJson fullCommitProofMessage
        pure ⟨couch, some text, text.length⟩

/-- A parser that reads the texts of some objects, as `json` prints them, and leaves an empty object
    after any other text. -/
def Libraries.ofObjects (objects : List Object) : Libraries where
  parse text := (objects.find? fun o => Object.json o == text).getD []
  newRev _ _ := "2"

end ConcordBft.MembershipService
