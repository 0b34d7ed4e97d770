import C11Omo.Http2.Run

set_option autoImplicit false

/-! # The server

`src/server.c`: the table of clients and the handling of one event of the event loop. What the
operating system answers is not part of the program: the outcomes of `accept`, `read` and `write`
are arguments (`Turn`), and the interest in an event is what was last asked of `h2_io` for a file
descriptor. A loop over system calls runs through a list of outcomes after which it goes on, and
ends with an outcome after which it does not.
-/

namespace C11Omo.Http2

open C11Omo.Lib

/-! ## Outcomes of system calls -/

/-- `sizeof(buffer)` in `h2_read_client`. -/
def readBufferLen : Nat := 8192

/-- The bytes of a `read` that returns a positive count. -/
structure Chunk where
  bytes : List UInt8
  length_pos : 0 < bytes.length
  length_le : bytes.length ≤ readBufferLen

/-- The client preface, read at once. -/
def prefaceChunk : Chunk := ⟨clientPreface, by decide, by decide⟩

/-- A `read` after which the loop may go on: bytes, or `EINTR`. -/
inductive ReadOutcome
  | got (chunk : Chunk)
  | interrupted

/-- A `read` that ends the loop: `EAGAIN`, a count of `0`, or another error. -/
inductive ReadEnd
  | again
  | endOfFile
  | failed
  deriving DecidableEq

structure Reads where
  outcomes : List ReadOutcome
  last : ReadEnd

/-- A `write` that ends the loop: `EAGAIN` or `EINTR`, or another error. -/
inductive WriteEnd
  | blocked
  | failed
  deriving DecidableEq

/-- The counts that `write` returns, and the error after them. -/
structure Writes where
  counts : List Nat
  last : WriteEnd

/-- An `accept` after which the loop goes on: `EINTR`, or a new file descriptor, with whether
`h2_set_nonblock` and `h2_io_add_connection` succeed for it. -/
inductive AcceptOutcome
  | interrupted
  | accepted (fd : Int) (nonblock added : Bool)

/-- An `accept` that ends the loop: `EAGAIN`, or another error. -/
inductive AcceptEnd
  | again
  | failed
  deriving DecidableEq

structure AcceptCalls where
  outcomes : List AcceptOutcome
  last : AcceptEnd

/-! ## Clients -/

/-- `H2_SERVER_MAX_CLIENTS`. -/
abbrev serverMaxClients : Nat := 128

/-- `h2_client`. -/
structure Client where
  fd : Int
  used : Bool
  conn : Connection

/-- A connection after `memset`. -/
def Connection.zero : Connection :=
  { Connection.init with
    maxFrameSize := 0
    initialStreamWindow := 0
    connSendWindow := 0
    connRecvWindow := 0 }

/-- What `h2_read_client` returns, the client after it, and what has been fed with the codes. -/
structure ReadResult where
  ret : Int
  client : Client
  fed : List (Chunk × ErrorCode)

/-- `h2_read_client`. -/
def readClient (client : Client) : List ReadOutcome → ReadEnd → ReadResult
  | [], .again => { ret := 0, client, fed := [] }
  | [], .endOfFile => { ret := 1, client, fed := [] }
  | [], .failed => { ret := -1, client, fed := [] }
  | .interrupted :: rest, last => readClient client rest last
  | .got chunk :: rest, last =>
      let (code, conn) := client.conn.feed chunk.bytes
      let client := { client with conn }
      if code ≠ .ok ∧ conn.wantsWrite = false then
        { ret := -1, client, fed := [(chunk, code)] }
      else
        let result := readClient client rest last
        { result with fed := (chunk, code) :: result.fed }

/-- `h2_flush_client`. -/
def flushClient (client : Client) : List Nat → WriteEnd → Int × Client
  | counts, last =>
      if client.conn.wantsWrite = false then (0, client)
      else
        match counts, last with
        | [], .blocked => (0, client)
        | [], .failed => (-1, client)
        | written :: rest, last =>
            if written = 0 then (0, client)
            else flushClient { client with conn := client.conn.consumeOutput written } rest last

/-! ## One event for one client -/

/-- `h2_event`. -/
structure IoEvent where
  fd : Int
  readable : Bool
  writable : Bool
  closed : Bool

/-- What one event does to a client: the client after reading and flushing, what has been fed,
the result of the flush, whether `h2_close_client` is called, and the argument of
`h2_io_mod_connection` if that is called. -/
structure Handling where
  client : Client
  fed : List (Chunk × ErrorCode)
  flushed : Int
  closes : Bool
  interest : Option Bool

/-- The reading part of the handling of an event. -/
def readEvent (client : Client) (event : IoEvent) (reads : Reads) : ReadResult :=
  if event.readable then readClient client reads.outcomes reads.last
  else { ret := 0, client, fed := [] }

/-- The flushing part. -/
def flushEvent (client : Client) (writes : Writes) : Int × Client :=
  if client.conn.wantsWrite then flushClient client writes.counts writes.last else (0, client)

/-- The handling of an event for a client in `h2_server_run`. -/
def handleClient (client : Client) (event : IoEvent) (reads : Reads) (writes : Writes) :
    Handling :=
  let read := readEvent client event reads
  let closeAfter := read.ret < 0 || read.ret > 0
  let closeAfter := closeAfter || event.closed
  let (flushed, client) := flushEvent read.client writes
  let closeAfter := closeAfter || flushed ≠ 0
  { client
    fed := read.fed
    flushed
    closes := closeAfter && !client.conn.wantsWrite
    interest := if closeAfter then none else some client.conn.wantsWrite }

/-! ## The server -/

/-- The state of `h2_server_run`. `io` is the interest in writing that was last registered for a
file descriptor, `none` if it is not registered. -/
structure Server where
  listenerFd : Int
  clients : Fin serverMaxClients → Client
  io : Int → Option Bool
  acceptedCount : Nat
  exitCode : Int

namespace Server

def setClient (s : Server) (pos : Fin serverMaxClients) (client : Client) : Server :=
  { s with clients := Function.update s.clients pos client }

/-- `h2_io_add_connection` and `h2_io_mod_connection`. -/
def register (s : Server) (fd : Int) (wantWrite : Bool) : Server :=
  { s with io := Function.update s.io fd (some wantWrite) }

/-- `h2_io_remove`. -/
def unregister (s : Server) (fd : Int) : Server := { s with io := Function.update s.io fd none }

/-- `h2_find_client`. -/
def findClient (s : Server) (fd : Int) : Option (Fin serverMaxClients) :=
  (List.finRange serverMaxClients).find? fun pos => (s.clients pos).used && (s.clients pos).fd = fd

/-- `h2_alloc_client`. -/
def allocClient (s : Server) (fd : Int) : Option (Fin serverMaxClients × Server) :=
  match (List.finRange serverMaxClients).find? fun pos => !(s.clients pos).used with
  | none => none
  | some pos => some (pos, s.setClient pos { fd, used := true, conn := Connection.init })

/-- `h2_active_client_count`. -/
def activeClientCount (s : Server) : Nat :=
  (List.finRange serverMaxClients).countP fun pos => (s.clients pos).used

/-- `h2_close_client`. -/
def closeClient (s : Server) (pos : Fin serverMaxClients) : Server :=
  if (s.clients pos).used then
    (s.unregister (s.clients pos).fd).setClient pos { fd := -1, used := false, conn := .zero }
  else s

/-- What the loop of `h2_accept_clients` does with a new file descriptor. -/
def acceptClient (s : Server) (fd : Int) (nonblock added : Bool) : Server :=
  if nonblock = false then s
  else
    match s.allocClient fd with
    | none => s
    | some (pos, s) =>
        if added = false then s.closeClient pos
        else
          { s.register fd false with acceptedCount := (s.acceptedCount + 1) % 4294967296 }

/-- `h2_accept_clients`. -/
def acceptClients (s : Server) : List AcceptOutcome → AcceptEnd → Int × Server
  | [], .again => (0, s)
  | [], .failed => (-1, s)
  | .interrupted :: rest, last => s.acceptClients rest last
  | .accepted fd nonblock added :: rest, last =>
      (s.acceptClient fd nonblock added).acceptClients rest last

/-- The state after `h2_server_run` has set up its listener. -/
def start (listenerFd : Int) : Server :=
  { listenerFd
    clients := fun _ => { fd := 0, used := false, conn := .zero }
    io := fun _ => none
    acceptedCount := 0
    exitCode := 0 }

end Server

/-- An event that `h2_io_wait` has reported, and the outcomes of the system calls while it is
handled. -/
structure Turn where
  event : IoEvent
  accepts : AcceptCalls
  reads : Reads
  writes : Writes

/-- What a turn does to the client at `pos`. -/
def Server.handling (s : Server) (turn : Turn) (pos : Fin serverMaxClients) : Handling :=
  handleClient (s.clients pos) turn.event turn.reads turn.writes

/-- One iteration of the loop over the events in `h2_server_run`. -/
def Server.turn (s : Server) (turn : Turn) : Server :=
  if turn.event.fd = s.listenerFd then
    if turn.event.readable then
      let (ret, s) := s.acceptClients turn.accepts.outcomes turn.accepts.last
      if ret ≠ 0 then { s with exitCode := -1 } else s
    else s
  else
    match s.findClient turn.event.fd with
    | none => s
    | some pos =>
        let handling := s.handling turn pos
        let s := s.setClient pos handling.client
        if handling.closes then s.closeClient pos
        else
          match handling.interest with
          | some wantWrite => s.register handling.client.fd wantWrite
          | none => s

/-- The loop of `h2_server_run` ends before the next `h2_io_wait`. -/
def Server.stops (s : Server) (maxConnections : Nat) : Bool :=
  s.exitCode ≠ 0 || (maxConnections > 0 && s.acceptedCount ≥ maxConnections
    && s.activeClientCount = 0)

/-! ## Reading -/

section

variable {client : Client} {rest : List ReadOutcome} {last : ReadEnd}

/-- Reading changes the connection of a client and nothing else of it. -/
theorem readClient_client (client : Client) (outcomes : List ReadOutcome) (last : ReadEnd) :
    (readClient client outcomes last).client.fd = client.fd
      ∧ (readClient client outcomes last).client.used = client.used := by
  induction outcomes generalizing client with
  | nil => cases last <;> exact ⟨rfl, rfl⟩
  | cons outcome rest ih =>
      cases outcome with
      | interrupted => exact ih client
      | got chunk =>
          rw [readClient]
          rcases client.conn.feed chunk.bytes with ⟨code, conn⟩
          simp only
          split
          · exact ⟨rfl, rfl⟩
          · exact ih { client with conn }

end

/-! ## Flushing -/

namespace Connection

theorem wantsWrite_eq_false {c : Connection} : c.wantsWrite = false ↔ c.pending = [] := by
  rw [wantsWrite, decide_eq_false_iff_not, not_lt, pending, List.drop_eq_nil_iff]

/-- Consuming output takes it off the front of what is pending. -/
theorem consumeOutput_pending (c : Connection) (sentLen : Nat) :
    (c.consumeOutput sentLen).pending = c.pending.drop sentLen := by
  have hcompact : ∀ c : Connection, c.compactOutput.pending = c.pending := by
    intro c
    unfold compactOutput pending
    split_ifs with h0 hall
    · rfl
    · rw [List.drop_of_length_le hall]
      rfl
    · rfl
  rw [consumeOutput, hcompact]
  show c.output.drop (c.outputSent
      + if sentLen > c.pending.length then c.pending.length else sentLen)
    = (c.output.drop c.outputSent).drop sentLen
  rw [List.drop_drop]
  by_cases hbig : sentLen > c.pending.length
  · have hlen : c.pending.length = c.output.length - c.outputSent := List.length_drop
    rw [if_pos hbig, List.drop_of_length_le (by omega), List.drop_of_length_le (by omega)]
  · rw [if_neg hbig]

end Connection

/-- The bytes that `write` takes before it returns `0`. -/
def Writes.taken (writes : Writes) : Nat := (writes.counts.takeWhile (0 < ·)).sum

/-- The flush of `pending` ends with a hard error: every `write` before it has taken something,
and not all of the output. -/
def Writes.FailsOn (writes : Writes) (pending : List UInt8) : Prop :=
  writes.last = .failed ∧ (∀ count ∈ writes.counts, 0 < count)
    ∧ writes.counts.sum < pending.length

instance (writes : Writes) (pending : List UInt8) : Decidable (writes.FailsOn pending) :=
  inferInstanceAs (Decidable (_ ∧ _ ∧ _))

/-- **The flush of a client**: the output that `write` takes is consumed, and the result is `-1`
exactly after a hard error. -/
theorem flushClient_spec (client : Client) (counts : List Nat) (last : WriteEnd) :
    (flushClient client counts last).2.conn.pending
        = client.conn.pending.drop (Writes.taken { counts, last })
      ∧ (flushClient client counts last).1
        = (if Writes.FailsOn { counts, last } client.conn.pending then -1 else 0)
      ∧ (flushClient client counts last).2.fd = client.fd
      ∧ (flushClient client counts last).2.used = client.used := by
  -- on the results of `write`, of which the last may be an error
  induction counts generalizing client with
  | nil =>
      unfold flushClient
      by_cases hnone : client.conn.wantsWrite = false
      · have hnil := Connection.wantsWrite_eq_false.mp hnone
        rw [if_pos hnone, if_neg (by simp [Writes.FailsOn, hnil])]
        exact ⟨by simp [Writes.taken], rfl, rfl, rfl⟩
      · have hsome : client.conn.pending ≠ [] := mt Connection.wantsWrite_eq_false.mpr hnone
        rw [if_neg hnone]
        cases last with
        | blocked =>
            rw [if_neg (by simp [Writes.FailsOn])]
            exact ⟨by simp [Writes.taken], rfl, rfl, rfl⟩
        | failed =>
            have hpos := List.length_pos_iff.mpr hsome
            rw [if_pos ⟨rfl, by simp, by simpa using hpos⟩]
            exact ⟨by simp [Writes.taken], rfl, rfl, rfl⟩
  | cons count rest ih =>
      unfold flushClient
      by_cases hnone : client.conn.wantsWrite = false
      · have hnil := Connection.wantsWrite_eq_false.mp hnone
        rw [if_pos hnone, if_neg (by simp [Writes.FailsOn, hnil])]
        exact ⟨by simp [hnil], rfl, rfl, rfl⟩
      · rw [if_neg hnone]
        by_cases hzero : count = 0
        · simp only [if_pos hzero]
          rw [if_neg (by simp [Writes.FailsOn, hzero])]
          exact ⟨by simp [Writes.taken, hzero], rfl, trivial, trivial⟩
        · -- the rest of the loop runs behind the bytes that were taken
          have hpos : 0 < count := Nat.pos_of_ne_zero hzero
          obtain ⟨hpend, hret, hfd, hused⟩ :=
            ih { client with conn := client.conn.consumeOutput count }
          simp only [if_neg hzero]
          refine ⟨?_, ?_, hfd, hused⟩
          · rw [hpend]
            simp only [Connection.consumeOutput_pending, List.drop_drop]
            simp [Writes.taken, hpos]
          · rw [hret]
            simp only [Connection.consumeOutput_pending]
            congr 1
            simp only [Writes.FailsOn, List.mem_cons, forall_eq_or_imp, List.sum_cons,
              List.length_drop, eq_iff_iff]
            constructor
            · rintro ⟨hlast, hall, hlt⟩
              exact ⟨hlast, ⟨hpos, hall⟩, by omega⟩
            · rintro ⟨hlast, ⟨-, hall⟩, hlt⟩
              exact ⟨hlast, hall, by omega⟩

/-! ## One event -/

section

variable {client : Client} {event : IoEvent} {reads : Reads} {writes : Writes}

/-- The output that is pending when an event comes to flush it. -/
def pendingOutput (client : Client) (event : IoEvent) (reads : Reads) : List UInt8 :=
  (readEvent client event reads).client.conn.pending

/-- The read side is at its end: end of file, an error, or the closed flag of the event. -/
def ReadEnds (client : Client) (event : IoEvent) (reads : Reads) : Prop :=
  (readEvent client event reads).ret ≠ 0 ∨ event.closed = true

instance : Decidable (ReadEnds client event reads) := inferInstanceAs (Decidable (_ ∨ _))

theorem readEvent_client : (readEvent client event reads).client.fd = client.fd
    ∧ (readEvent client event reads).client.used = client.used := by
  unfold readEvent
  split
  · exact readClient_client client _ _
  · exact ⟨rfl, rfl⟩

theorem flushEvent_eq (client : Client) (writes : Writes) :
    flushEvent client writes = flushClient client writes.counts writes.last := by
  unfold flushEvent
  by_cases hsome : client.conn.wantsWrite = true
  · rw [if_pos hsome]
  · have hnone : client.conn.wantsWrite = false := by simpa using hsome
    rw [if_neg hsome]
    unfold flushClient
    rw [if_pos hnone]

/-- Output on which the flush fails is not drained. -/
theorem Writes.FailsOn.not_drained {pending : List UInt8} (h : writes.FailsOn pending) :
    ¬ pending.length ≤ writes.taken := by
  obtain ⟨-, hall, hlt⟩ := h
  have htaken : writes.taken = writes.counts.sum := by
    rw [Writes.taken, List.takeWhile_eq_self_iff.mpr (by simpa using hall)]
  omega

/-- **What one event does to a client.** The flush takes what `write` takes. The client is closed
when the read side is at its end and the output is drained, and its interest is registered anew
when the read side is not at its end and the flush has not failed. -/
theorem handleClient_spec (client : Client) (event : IoEvent) (reads : Reads) (writes : Writes) :
    (handleClient client event reads writes).client.conn.pending
        = (pendingOutput client event reads).drop writes.taken
      ∧ ((handleClient client event reads writes).flushed ≠ 0
          ↔ writes.FailsOn (pendingOutput client event reads))
      ∧ ((handleClient client event reads writes).closes = true
          ↔ ReadEnds client event reads
            ∧ (pendingOutput client event reads).length ≤ writes.taken)
      ∧ (handleClient client event reads writes).interest
          = (if ReadEnds client event reads ∨ writes.FailsOn (pendingOutput client event reads)
              then none
              else some (decide (writes.taken < (pendingOutput client event reads).length)))
      ∧ (handleClient client event reads writes).client.fd = client.fd
      ∧ (handleClient client event reads writes).client.used = client.used := by
  obtain ⟨hpend, hret, hfd, hused⟩ := flushClient_spec (readEvent client event reads).client
    writes.counts writes.last
  obtain ⟨hfd', hused'⟩ := @readEvent_client client event reads
  rw [← flushEvent_eq] at hpend hret hfd hused
  have hflushed : (flushEvent (readEvent client event reads).client writes).1 ≠ 0
      ↔ writes.FailsOn (pendingOutput client event reads) := by
    rw [hret]
    show (if writes.FailsOn (pendingOutput client event reads) then (-1 : Int) else 0) ≠ 0 ↔ _
    split <;> simp [*]
  have hwants : (flushEvent (readEvent client event reads).client writes).2.conn.wantsWrite
      = decide (writes.taken < (pendingOutput client event reads).length) := by
    by_cases hlt : writes.taken < (pendingOutput client event reads).length
    · rw [decide_eq_true hlt, ← Bool.not_eq_false, Connection.wantsWrite_eq_false, hpend]
      rw [List.drop_eq_nil_iff]
      exact not_le.mpr hlt
    · rw [decide_eq_false hlt, Connection.wantsWrite_eq_false, hpend, List.drop_eq_nil_iff]
      exact not_lt.mp hlt
  have hends : ((readEvent client event reads).ret < 0 || (readEvent client event reads).ret > 0
      || event.closed) = true ↔ ReadEnds client event reads := by
    simp only [Bool.or_eq_true, decide_eq_true_eq, ReadEnds]
    exact or_congr (by omega) Iff.rfl
  refine ⟨hpend, hflushed, ?_, ?_, hfd.trans hfd', hused.trans hused'⟩
  · -- a failed write leaves output, so it never closes the client by itself
    show (((readEvent client event reads).ret < 0 || (readEvent client event reads).ret > 0
        || event.closed || decide ((flushEvent (readEvent client event reads).client writes).1 ≠ 0))
      && !(flushEvent (readEvent client event reads).client writes).2.conn.wantsWrite) = true ↔ _
    rw [Bool.and_eq_true, Bool.or_eq_true, hends, decide_eq_true_eq, hwants]
    rw [hflushed]
    constructor
    · rintro ⟨hor, hdone⟩
      have hle : (pendingOutput client event reads).length ≤ writes.taken := by simpa using hdone
      exact ⟨hor.resolve_right fun hfail => hfail.not_drained hle, hle⟩
    · rintro ⟨hend, hle⟩
      exact ⟨Or.inl hend, by simpa using hle⟩
  · show (if ((readEvent client event reads).ret < 0 || (readEvent client event reads).ret > 0
        || event.closed || decide ((flushEvent (readEvent client event reads).client writes).1 ≠ 0))
          = true then none
      else some (flushEvent (readEvent client event reads).client writes).2.conn.wantsWrite) = _
    rw [hwants]
    congr 1
    rw [Bool.or_eq_true, hends, decide_eq_true_eq, hflushed]

end

end C11Omo.Http2
