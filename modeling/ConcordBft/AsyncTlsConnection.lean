import ConcordBft.Lib.LittleEndian
import ConcordBft.Lib.Machine

set_option autoImplicit false

/-! # The writes of a TLS connection (`TlsTCPCommunication.cpp`)

Any thread calls `send`, which queues a frame under the write lock and posts `do_write` when the
queue was empty. `do_write` and the completion callback of a write start the next one. Both test
`_disposed` before they take the lock, so each of them is two steps here. -/

namespace ConcordBft.AsyncTlsConnection

/-- `MSG_HEADER_SIZE`: the header of a message is its length. -/
def msgHeaderSize : ℕ := 4

def maxMessageLength (bufferLength : UInt32) : UInt32 := bufferLength + 4 + 1

/-- What `send` is called with: the length is a `uint32_t`. -/
abbrev Message := { data : List UInt8 // data.length < 2 ^ 32 }

/-- The length, which fits into the header. -/
def Message.length (m : Message) : UInt32 := UInt32.ofNatLT m.1.length m.2

/-- The header and the message. -/
def frame (m : Message) : List UInt8 := LittleEndian.encode msgHeaderSize m.1.length ++ m.1

/-- The assertion of `send`. -/
def accepts (bufferLength : UInt32) (m : Message) : Bool :=
  0 < m.length && m.length ≤ maxMessageLength bufferLength - 4

/-- The frame fits the buffer that `send` allocates, whose size is a sum of 32 bits. -/
def fits (m : Message) : Bool := (frame m).length ≤ (m.length + 4).toNat

/-- The frame of a message, in the buffer that `new` has returned: a fresh one for each message. -/
structure OutMessage where
  buffer : ℕ
  message : Message
deriving DecidableEq

/-- The bytes of a queued message. -/
def OutMessage.data (out : OutMessage) : List UInt8 := frame out.message

/-- `async_write` on the buffer of a message. -/
structure AsyncWrite where
  message : OutMessage
  transferred : ℕ := 0
deriving DecidableEq

/-- The sending side of a connection. -/
structure State where
  outQueue : List OutMessage := []
  disposed : Bool := false
  /-- the posted calls of `do_write` that have not started -/
  posted : ℕ := 0
  /-- the calls of `do_write` behind the test of `_disposed` -/
  entered : ℕ := 0
  writes : List AsyncWrite := []
  /-- the writes without error whose callback is behind the test of `_disposed` -/
  completing : List AsyncWrite := []
  /-- all messages that were queued -/
  sent : List OutMessage := []
  /-- all bytes that were handed to the socket -/
  written : List UInt8 := []
deriving DecidableEq

/-- What happens on the connection. -/
inductive Event where
  | send (m : Message)
  | doWrite
  | doWriteLocked
  /-- A write hands its next byte to the socket. -/
  | transfer (i : ℕ)
  /-- The callback of a write that has handed over its whole buffer. -/
  | writeComplete (i : ℕ)
  | writeCompleteLocked
  | writeError (i : ℕ)
  | disposeConnection
deriving DecidableEq

namespace State

variable (c : State)

/-- `start_async_write`, if the queue is not empty. -/
def startAsyncWrite : State :=
  { c with writes := c.writes ++ (c.outQueue.head?.map fun m => { message := m }).toList }

def send (m : Message) : State :=
  { c with
    outQueue := c.outQueue ++ [⟨c.sent.length, m⟩]
    sent := c.sent ++ [⟨c.sent.length, m⟩]
    posted := if c.outQueue.length + 1 = 1 then c.posted + 1 else c.posted }

/-- `none`: nothing of the kind is pending, or the process ends in `send`. -/
def next (bufferLength : UInt32) : Event → Option State
  | .send m => if accepts bufferLength m && fits m then some (c.send m) else none
  | .doWrite =>
    if c.posted = 0 then none
    else some { c with
      posted := c.posted - 1, entered := if c.disposed then c.entered else c.entered + 1 }
  | .doWriteLocked =>
    if c.entered = 0 then none
    else some { c with entered := c.entered - 1 }.startAsyncWrite
  | .transfer i => do
    let w ← c.writes[i]?
    let b ← w.message.data[w.transferred]?
    return { c with
      writes := c.writes.set i { w with transferred := w.transferred + 1 }
      written := c.written ++ [b] }
  | .writeComplete i => do
    let w ← c.writes[i]?
    if w.transferred < w.message.data.length then none
    else some { c with
      writes := c.writes.eraseIdx i
      completing := if c.disposed then c.completing else c.completing ++ [w] }
  | .writeCompleteLocked => do
    let _ ← c.completing.head?
    return { c with completing := c.completing.tail, outQueue := c.outQueue.tail }.startAsyncWrite
  | .writeError i => do
    let _ ← c.writes[i]?
    return { c with writes := c.writes.eraseIdx i, disposed := true }
  | .disposeConnection => some { c with disposed := true }

/-- Any order of events. -/
abbrev Reaches (bufferLength : UInt32) : State → State → Prop :=
  Machine.Reaches (fun c e => c.next bufferLength e) fun _ _ => True

/-- The writes whose callback has not returned. -/
def outstanding : List AsyncWrite := c.writes ++ c.completing

end State

/-! ## The one call that goes on with the queue -/

/-- The bytes of messages. -/
def bytes (ms : List OutMessage) : List UInt8 := (ms.map OutMessage.data).flatten

/-- The states of a run: `done` was written, and there is at most one call that can go on. -/
inductive Stage (done : List OutMessage) : State → Prop
  | idle (disposed : Bool) : Stage done { disposed, sent := done, written := bytes done }
  | posted (disposed : Bool) (m : OutMessage) (rest : List OutMessage) : Stage done
      { disposed, outQueue := m :: rest, posted := 1, sent := done ++ m :: rest,
        written := bytes done }
  | entered (disposed : Bool) (m : OutMessage) (rest : List OutMessage) : Stage done
      { disposed, outQueue := m :: rest, entered := 1, sent := done ++ m :: rest,
        written := bytes done }
  | writing (disposed : Bool) (m : OutMessage) (rest : List OutMessage) (k : ℕ) : Stage done
      { disposed, outQueue := m :: rest, writes := [⟨m, k⟩], sent := done ++ m :: rest,
        written := bytes done ++ m.data.take k }
  | completing (disposed : Bool) (m : OutMessage) (rest : List OutMessage) (k : ℕ)
      (h : m.data.length ≤ k) : Stage done
      { disposed, outQueue := m :: rest, completing := [⟨m, k⟩], sent := done ++ m :: rest,
        written := bytes done ++ m.data }
  | abandoned (m : OutMessage) (rest : List OutMessage) (k : ℕ) : Stage done
      { disposed := true, outQueue := m :: rest, sent := done ++ m :: rest,
        written := bytes done ++ m.data.take k }

variable {done : List OutMessage} {c c' : State} {bufferLength : UInt32}

theorem Stage.send (h : Stage done c) (m : Message) : Stage done (c.send m) := by
  cases h with
  | idle d => exact .posted d _ []
  | _ =>
    simp only [State.send, List.append_assoc, List.cons_append, List.length_cons]
    constructor <;> assumption

/-- The callback of a message that was written removes it and goes on with the next one. -/
theorem Stage.next_message (done : List OutMessage) (d : Bool) (m : OutMessage)
    (rest : List OutMessage) :
    Stage (done ++ [m]) (State.startAsyncWrite
      { disposed := d, outQueue := rest, sent := done ++ m :: rest,
        written := bytes done ++ m.data }) := by
  have hbytes : bytes done ++ m.data = bytes (done ++ [m]) := by simp [bytes]
  have hsent : done ++ m :: rest = (done ++ [m]) ++ rest := by simp
  rw [hbytes, hsent]
  cases rest with
  | nil => simpa [State.startAsyncWrite] using Stage.idle d
  | cons m' rest =>
    have hwriting := @Stage.writing (done ++ [m]) d m' rest 0
    simpa [State.startAsyncWrite] using hwriting

/-- **Step lemma.** Only the callback of a written message moves on to the next one. -/
theorem Stage.next (h : Stage done c) (e : Event) (hn : c.next bufferLength e = some c') :
    Stage done c' ∨ e = .writeCompleteLocked ∧ ∃ w rest, c.completing = [w] ∧
      c.outQueue = w.message :: rest ∧ c'.outQueue = rest ∧ Stage (done ++ [w.message]) c' := by
  cases e with
  | send m =>
    simp only [State.next, Option.ite_none_right_eq_some, Option.some.injEq] at hn
    exact Or.inl (hn.2 ▸ h.send m)
  | doWrite =>
    cases h <;> simp [State.next] at hn
    case posted d m rest =>
      subst hn
      cases d with
      | false => exact Or.inl (.entered false m rest)
      | true => exact Or.inl (by simpa using Stage.abandoned m rest 0)
  | doWriteLocked =>
    cases h <;> simp [State.next] at hn
    case entered d m rest =>
      subst hn
      exact Or.inl (by simpa [State.startAsyncWrite] using Stage.writing d m rest 0)
  | transfer i =>
    cases h <;> simp [State.next, Option.bind_eq_some_iff, List.getElem?_singleton] at hn
    case writing d m rest k =>
      obtain ⟨rfl, b, hb, rfl⟩ := hn
      refine Or.inl ?_
      simpa [List.take_add_one, hb] using @Stage.writing done d m rest (k + 1)
  | writeComplete i =>
    cases h <;> simp [State.next, Option.bind_eq_some_iff, List.getElem?_singleton] at hn
    case writing d m rest k =>
      obtain ⟨rfl, hk, rfl⟩ := hn
      rw [List.take_of_length_le hk]
      cases d with
      | false => exact Or.inl (.completing false m rest k hk)
      | true => exact Or.inl (by simpa using Stage.abandoned m rest m.data.length)
  | writeCompleteLocked =>
    cases h <;> simp [State.next] at hn
    case completing d m rest k hk =>
      subst hn
      refine Or.inr ⟨rfl, _, rest, rfl, rfl, rfl, Stage.next_message done d m rest⟩
  | writeError i =>
    cases h <;> simp [State.next, Option.bind_eq_some_iff, List.getElem?_singleton] at hn
    case writing d m rest k =>
      obtain ⟨rfl, rfl⟩ := hn
      exact Or.inl (.abandoned m rest k)
  | disposeConnection =>
    simp only [State.next, Option.some.injEq] at hn
    subst hn
    refine Or.inl ?_
    cases h
    case completing hk => exact .completing true _ _ _ hk
    all_goals constructor

/-! ## Every interleaving -/

theorem Stage.sent_eq (h : Stage done c) : c.sent = done ++ c.outQueue := by
  cases h <;> simp

theorem Stage.outstanding (h : Stage done c) : c.outstanding.length ≤ 1 ∧
    ∃ k, (∀ w ∈ c.outstanding, c.outQueue.head? = some w.message ∧ w.transferred = k) ∧
      c.written = bytes done ++ (bytes c.outQueue.head?.toList).take k := by
  cases h with
  | idle | posted | entered => exact ⟨by simp [State.outstanding], 0, by simp [State.outstanding]⟩
  | writing _ _ _ k | abandoned _ _ k =>
    exact ⟨by simp [State.outstanding], k, by simp [State.outstanding, bytes]⟩
  | completing d m rest k hk =>
    refine ⟨by simp [State.outstanding], k, by simp [State.outstanding], ?_⟩
    simp [bytes, List.take_of_length_le hk]

theorem Stage.goes_on (h : Stage done c) (hdisposed : c.disposed = false) (hqueue : c.outQueue ≠ []) :
    c.outstanding ≠ [] ∨ 0 < c.posted + c.entered := by
  cases h <;> simp_all [State.outstanding]

/-- The buffers are numbered as they are allocated. -/
def Numbered (c : State) : Prop := c.sent.map OutMessage.buffer = List.range c.sent.length

theorem next_sent {e : Event} (hn : c.next bufferLength e = some c') :
    c'.sent = c.sent ∨ ∃ m, c'.sent = c.sent ++ [⟨c.sent.length, m⟩] := by
  cases e <;> simp [State.next, Option.bind_eq_some_iff, State.startAsyncWrite] at hn
  case send m => exact Or.inr ⟨m, hn.2 ▸ rfl⟩
  all_goals grind

theorem stage_of_reaches (h : State.Reaches bufferLength {} c) :
    (∃ done, Stage done c) ∧ Numbered c := by
  refine Machine.Reaches.invariant (fun c => (∃ done, Stage done c) ∧ Numbered c)
    ⟨⟨[], .idle false⟩, rfl⟩ ?_ h
  rintro c e c' ⟨⟨done, hstage⟩, hnumbered⟩ - hn
  refine ⟨?_, ?_⟩
  · rcases hstage.next e hn with hstays | ⟨-, w, -, -, -, -, hnext⟩
    · exact ⟨done, hstays⟩
    · exact ⟨_, hnext⟩
  · rcases next_sent hn with hsent | ⟨m, hsent⟩
    · simpa [Numbered, hsent] using hnumbered
    · simpa [Numbered, hsent, List.range_succ] using hnumbered

/-- **The writes of a connection are serialized.** At most one write is outstanding, on the front of
    the queue, which only the callback of a completed write removes. What was written are the frames
    of the removed messages, in the order of the queue, and a part of the front. A queue that is not
    empty has a write or a call that starts one. -/
theorem writes_serialized (h : State.Reaches bufferLength {} c) :
    c.outstanding.length ≤ 1 ∧ (c.sent.map OutMessage.buffer).Nodup ∧
    (∃ done k, c.sent = done ++ c.outQueue ∧
      c.written = bytes done ++ (bytes c.outQueue.head?.toList).take k ∧
      ∀ w ∈ c.outstanding, c.outQueue.head? = some w.message ∧ w.transferred = k) ∧
    (∀ e c', c.next bufferLength e = some c' → c.outQueue <+: c'.outQueue ∨
      ∃ w, e = .writeCompleteLocked ∧ c.completing = [w] ∧
        c.outQueue = w.message :: c'.outQueue) ∧
    (c.disposed = false → c.outQueue ≠ [] → c.outstanding ≠ [] ∨ 0 < c.posted + c.entered) := by
  obtain ⟨⟨done, hstage⟩, hnumbered⟩ := stage_of_reaches h
  obtain ⟨hone, k, hfront, hwritten⟩ := hstage.outstanding
  refine ⟨hone, ?_, ⟨done, k, hstage.sent_eq, hwritten, hfront⟩, fun e c' hn => ?_, hstage.goes_on⟩
  · rw [show c.sent.map OutMessage.buffer = _ from hnumbered]
    exact List.nodup_range
  · rcases hstage.next e hn with hstays | ⟨he, w, rest, hw, hqueue, rfl, -⟩
    · refine Or.inl ((List.prefix_append_right_inj done).1 ?_)
      rw [← hstage.sent_eq, ← hstays.sent_eq]
      rcases next_sent hn with hsent | ⟨m, hsent⟩
      · exact hsent ▸ List.prefix_rfl
      · exact hsent ▸ List.prefix_append _ _
    · exact Or.inr ⟨w, he, hw, hqueue⟩

/-- A message is sent while `do_write` waits for the lock, and lost with the error of its write. -/
def eventsOfTwo : List Event :=
  [.send ⟨[7], by simp⟩, .doWrite, .send ⟨[8], by simp⟩, .doWriteLocked] ++
    List.replicate 5 (.transfer 0) ++
    [.writeComplete 0, .writeCompleteLocked, .transfer 0, .writeError 0]

theorem writes_serialized_two :
    ∃ c, State.Reaches 8 {} c ∧ c.written = [1, 0, 0, 0, 7, 1] ∧ c.outstanding.length ≤ 1 := by
  have hrun : ∃ c, State.Reaches 8 {} c ∧ c.written = [1, 0, 0, 0, 7, 1] :=
    Machine.exists_reaches eventsOfTwo (by decide)
  obtain ⟨c, hreach, hwritten⟩ := hrun
  exact ⟨c, hreach, hwritten, (writes_serialized hreach).1⟩

end ConcordBft.AsyncTlsConnection
