import C11Omo.Lib.Sessions
import C11Omo.Http2.Closing
import C11Omo.Http2.Chunking
import C11Omo.Http2.WellFramed

set_option autoImplicit false

/-! # The sockets of the server

What `h2_server_run` does with the sockets of its clients, beside what it does with its own state:
which descriptors it gets from `accept` and closes, what it reads from them and what it writes to
them (`turnTraffic`). The events of all clients come in any order, and a descriptor is given to
another client once it is closed.

At every moment the accesses so far are in order: no descriptor is read, written or closed that is
not open, and none is closed twice. What has been read from and written to an open socket is a run of
the connection of its client and of nothing else (`sockets_sound`). When the server returns all
descriptors are closed (`server_closes_all`).
-/

namespace C11Omo.Http2

open C11Omo.Lib Connection

/-! ## The log of a socket -/

/-- A `read` that has returned bytes, or a `write` that has taken some. -/
inductive SocketCall
  | got (bytes : List UInt8)
  | wrote (bytes : List UInt8)
  deriving DecidableEq

/-- What the server does to the socket of a client. -/
abbrev SocketAccess := Access Int SocketCall

/-- What the call is for the connection of the client. -/
def SocketCall.op : SocketCall → Op
  | .got bytes => .feed bytes
  | .wrote bytes => .consume bytes.length

/-- The bytes that have been written. -/
def writtenBytes : List SocketCall → List UInt8
  | [] => []
  | .got _ :: rest => writtenBytes rest
  | .wrote bytes :: rest => bytes ++ writtenBytes rest

/-- The bytes that have been read. -/
def readBytes : List SocketCall → List UInt8
  | [] => []
  | .got bytes :: rest => bytes ++ readBytes rest
  | .wrote _ :: rest => readBytes rest

/-- The calls are those of a run of the connection: each write takes bytes from the front of what is
pending at that moment. -/
def Run.Serves (r : Run) : List SocketCall → Prop
  | [] => True
  | .got bytes :: rest => (r.call (.feed bytes)).Serves rest
  | .wrote bytes :: rest =>
      bytes <+: r.conn.pending ∧ (r.call (.consume bytes.length)).Serves rest

/-! ## What the server does to a socket -/

/-- The reads of `h2_read_client` that return bytes. -/
def readCalls (client : Client) : List ReadOutcome → List SocketCall
  | [] => []
  | .interrupted :: rest => readCalls client rest
  | .got chunk :: rest =>
      let (code, conn) := client.conn.feed chunk.bytes
      if code ≠ .ok ∧ conn.wantsWrite = false then [.got chunk.bytes]
      else .got chunk.bytes :: readCalls { client with conn } rest

/-- The writes of `h2_flush_client` that take bytes. -/
def flushCalls (client : Client) : List Nat → List SocketCall
  | [] => []
  | written :: rest =>
      if client.conn.wantsWrite = false then []
      else if written = 0 then []
      else
        .wrote (client.conn.pending.take written)
          :: flushCalls { client with conn := client.conn.consumeOutput written } rest

/-- The reads and writes while one event is handled for a client. -/
def handlingCalls (client : Client) (event : IoEvent) (reads : Reads) (writes : Writes) :
    List SocketCall :=
  (if event.readable then readCalls client reads.outcomes else [])
    ++ flushCalls (readEvent client event reads).client writes.counts

namespace Server

/-- The `close` in `h2_close_client`. -/
def closeTraffic (s : Server) (pos : Fin serverMaxClients) : List SocketAccess :=
  if (s.clients pos).used then [.closed (s.clients pos).fd] else []

/-- What the loop of `h2_accept_clients` does to a new file descriptor. -/
def acceptTraffic (s : Server) (fd : Int) (nonblock added : Bool) : List SocketAccess :=
  .opened fd ::
    if nonblock = false then [.closed fd]
    else
      match s.allocClient fd with
      | none => [.closed fd]
      | some (pos, s) => if added = false then s.closeTraffic pos else []

def acceptsTraffic (s : Server) : List AcceptOutcome → List SocketAccess
  | [] => []
  | .interrupted :: rest => s.acceptsTraffic rest
  | .accepted fd nonblock added :: rest =>
      s.acceptTraffic fd nonblock added ++ (s.acceptClient fd nonblock added).acceptsTraffic rest

/-- What one iteration of the loop over the events does to the sockets. -/
def turnTraffic (s : Server) (turn : Turn) : List SocketAccess :=
  if turn.event.fd = s.listenerFd then
    if turn.event.readable then s.acceptsTraffic turn.accepts.outcomes else []
  else
    match s.findClient turn.event.fd with
    | none => []
    | some pos =>
        let handling := s.handling turn pos
        (handlingCalls (s.clients pos) turn.event turn.reads turn.writes).map
            (.used (s.clients pos).fd)
          ++ if handling.closes then (s.setClient pos handling.client).closeTraffic pos else []

/-- The loop over the events that one `h2_io_wait` reports. -/
def turns (s : Server) (ts : List Turn) : Server := ts.foldl turn s

def turnsTraffic (s : Server) : List Turn → List SocketAccess
  | [] => []
  | t :: ts => s.turnTraffic t ++ (s.turn t).turnsTraffic ts

/-- The turns in a row are possible. -/
def Possible (s : Server) : List Turn → Prop
  | [] => True
  | t :: ts => s.AcceptsUnopened t.accepts.outcomes ∧ (s.turn t).Possible ts

/-- The loop over the clients at the end of `h2_server_run`. -/
def shutdown (s : Server) : List (Fin serverMaxClients) → Server
  | [] => s
  | pos :: rest => (s.closeClient pos).shutdown rest

def shutdownTraffic (s : Server) : List (Fin serverMaxClients) → List SocketAccess
  | [] => []
  | pos :: rest => s.closeTraffic pos ++ (s.closeClient pos).shutdownTraffic rest

end Server

/-- What a call of `h2_io_wait` reports. -/
inductive Wait
  | failed
  | reported (turns : List Turn)

/-- The calls of `h2_io_wait` are possible. One call reports at most 64 events. -/
def Server.Awaits (s : Server) : List Wait → Prop
  | [] => True
  | .failed :: _ => True
  | .reported ts :: rest => ts.length ≤ 64 ∧ s.Possible ts ∧ (s.turns ts).Awaits rest

/-- The loop of `h2_server_run` up to the `break`, if it comes to one: the server, and what has been
done to the sockets. -/
def serve (maxConnections : Nat) (s : Server) (waits : List Wait) :
    Option (Server × List SocketAccess) :=
  if maxConnections > 0 ∧ s.acceptedCount ≥ maxConnections ∧ s.activeClientCount = 0 then
    some (s, [])
  else
    match waits with
    | [] => none
    | .failed :: _ => some ({ s with exitCode := -1 }, [])
    | .reported ts :: rest =>
        if (s.turns ts).exitCode ≠ 0 then some (s.turns ts, s.turnsTraffic ts)
        else
          match serve maxConnections (s.turns ts) rest with
          | none => none
          | some (last, traffic) => some (last, s.turnsTraffic ts ++ traffic)

/-- `h2_server_run` behind its setup, if it returns: the exit code, and what it has done to the
sockets. -/
def serverRun (listenerFd : Int) (maxConnections : Nat) (waits : List Wait) :
    Option (Int × List SocketAccess) :=
  match serve maxConnections (Server.start listenerFd) waits with
  | none => none
  | some (s, traffic) =>
      some (s.exitCode, traffic ++ s.shutdownTraffic (List.finRange serverMaxClients))

/-! ## Logs and runs -/

namespace Run

variable {r : Run} {log log' : List SocketCall}

theorem Serves.append (h : r.Serves log) (h' : (r.calls (log.map SocketCall.op)).Serves log') :
    r.Serves (log ++ log') := by
  induction log generalizing r with
  | nil => exact h'
  | cons call log ih =>
      cases call with
      | got bytes => exact ih h h'
      | wrote bytes => exact ⟨h.1, ih h.2 h'⟩

theorem Serves.before (h : r.Serves log) {before : List SocketCall} (hpre : before <+: log) :
    r.Serves before := by
  induction log generalizing r before with
  | nil =>
      rw [List.prefix_nil.mp hpre]
      trivial
  | cons call log ih =>
      rcases before with _ | ⟨first, rest⟩
      · trivial
      · obtain ⟨rfl, hrest⟩ := List.cons_prefix_cons.mp hpre
        cases first with
        | got bytes => exact ih h hrest
        | wrote bytes => exact ⟨h.1, ih h.2 hrest⟩

/-- **What has been written** is what the run has sent, and what has been read is what it has
received. -/
theorem Serves.bytes (h : r.Serves log) :
    (r.calls (log.map SocketCall.op)).sent = r.sent ++ writtenBytes log
      ∧ (r.calls (log.map SocketCall.op)).received = r.received ++ readBytes log := by
  induction log generalizing r with
  | nil => exact ⟨(List.append_nil _).symm, (List.append_nil _).symm⟩
  | cons call log ih =>
      cases call with
      | got bytes =>
          obtain ⟨hsent, hreceived⟩ := ih h
          exact ⟨hsent, hreceived.trans (List.append_assoc _ _ _)⟩
      | wrote bytes =>
          obtain ⟨hsent, hreceived⟩ := ih h.2
          have htake : r.conn.pending.take bytes.length = bytes :=
            (List.prefix_iff_eq_take.mp h.1).symm
          refine ⟨hsent.trans ?_, hreceived⟩
          show r.sent ++ r.conn.pending.take bytes.length ++ writtenBytes log = _
          rw [htake, List.append_assoc]
          rfl

end Run

namespace Connection

/-- No more is consumed than is pending. -/
theorem consumeOutput_take (c : Connection) (sentLen : Nat) :
    c.consumeOutput (c.pending.take sentLen).length = c.consumeOutput sentLen := by
  rw [consumeOutput, consumeOutput, List.length_take]
  congr 2
  by_cases hbig : sentLen > c.pending.length
  · rw [if_pos hbig, min_eq_right hbig.le, if_neg (lt_irrefl _)]
  · rw [if_neg hbig, min_eq_left (not_lt.mp hbig), if_neg hbig]

end Connection

/-! ## Reading and flushing -/

section

variable {r : Run} {client : Client}

/-- **Reading** feeds the connection with what it gets. -/
theorem readCalls_serves (hconn : r.conn = client.conn) (outcomes : List ReadOutcome)
    (last : ReadEnd) : r.Serves (readCalls client outcomes)
      ∧ (r.calls ((readCalls client outcomes).map SocketCall.op)).conn
        = (readClient client outcomes last).client.conn := by
  induction outcomes generalizing r client with
  | nil => cases last <;> exact ⟨trivial, hconn⟩
  | cons outcome rest ih =>
      cases outcome with
      | interrupted => exact ih hconn
      | got chunk =>
          have hnext : (r.call (.feed chunk.bytes)).conn = (client.conn.feed chunk.bytes).2 := by
            rw [Run.call_feed_conn, hconn]
          rw [readCalls, readClient]
          rcases hfeed : client.conn.feed chunk.bytes with ⟨code, conn⟩
          rw [hfeed] at hnext
          simp only
          by_cases hstop : code ≠ .ok ∧ conn.wantsWrite = false
          · rw [if_pos hstop, if_pos hstop]
            exact ⟨trivial, hnext⟩
          · rw [if_neg hstop, if_neg hstop]
            exact @ih _ { client with conn } hnext

/-- **Flushing** consumes what it writes. -/
theorem flushCalls_serves (hconn : r.conn = client.conn) (counts : List Nat) (last : WriteEnd) :
    r.Serves (flushCalls client counts)
      ∧ (r.calls ((flushCalls client counts).map SocketCall.op)).conn
        = (flushClient client counts last).2.conn := by
  induction counts generalizing r client with
  | nil =>
      unfold flushClient
      split
      · exact ⟨trivial, hconn⟩
      · cases last <;> exact ⟨trivial, hconn⟩
  | cons count rest ih =>
      rw [flushCalls]
      unfold flushClient
      by_cases hnone : client.conn.wantsWrite = false
      · rw [if_pos hnone, if_pos hnone]
        exact ⟨trivial, hconn⟩
      · rw [if_neg hnone, if_neg hnone]
        by_cases hzero : count = 0
        · simp only [if_pos hzero]
          exact ⟨trivial, hconn⟩
        · simp only [if_neg hzero]
          have hnext : (r.call (.consume (client.conn.pending.take count).length)).conn
              = client.conn.consumeOutput count := by
            rw [← consumeOutput_take, ← hconn]
            rfl
          obtain ⟨hserves, hafter⟩ := @ih _ { client with conn := client.conn.consumeOutput count } hnext
          refine ⟨⟨?_, hserves⟩, hafter⟩
          rw [hconn]
          exact List.take_prefix _ _

/-- **One event** continues the run of the client. -/
theorem handlingCalls_serves (hconn : r.conn = client.conn) (event : IoEvent) (reads : Reads)
    (writes : Writes) : r.Serves (handlingCalls client event reads writes)
      ∧ (r.calls ((handlingCalls client event reads writes).map SocketCall.op)).conn
        = (handleClient client event reads writes).client.conn := by
  have hread : r.Serves (if event.readable then readCalls client reads.outcomes else [])
      ∧ (r.calls ((if event.readable then readCalls client reads.outcomes else []).map
          SocketCall.op)).conn = (readEvent client event reads).client.conn := by
    unfold readEvent
    by_cases hreadable : event.readable = true
    · rw [if_pos hreadable, if_pos hreadable]
      exact readCalls_serves hconn _ _
    · rw [if_neg hreadable, if_neg hreadable]
      exact ⟨trivial, hconn⟩
  obtain ⟨hserves, hafter⟩ := flushCalls_serves hread.2 writes.counts writes.last
  refine ⟨hread.1.append hserves, ?_⟩
  rw [handlingCalls, List.map_append, Run.calls_append, hafter, ← flushEvent_eq]
  rfl

end

/-! ## The sockets of the clients in use -/

/-- The open sockets are those of the clients in use, and the connection of every client is that of
the run in the log of its socket. -/
structure Server.Holds (s : Server) (table : Sessions Int SocketCall) : Prop where
  used : ∀ pos, (s.clients pos).used = true → ∃ log, table (s.clients pos).fd = some log
    ∧ (exec (log.map SocketCall.op)).conn = (s.clients pos).conn
  only : ∀ fd log, table fd = some log → ∃ pos, (s.clients pos).used = true ∧ (s.clients pos).fd = fd
  distinct : s.Distinct
  serves : table.All Run.start.Serves

/-- The accesses are in order, every log in between is that of a run, and the server is left with
the sockets of its clients. -/
def Server.Keeps (s' : Server) (table : Sessions Int SocketCall) (traffic : List SocketAccess) :
    Prop :=
  table.Sound Run.start.Serves traffic
    ∧ ∃ table', table.run traffic = some table' ∧ s'.Holds table'

namespace Server

variable {s s' s'' : Server} {pos : Fin serverMaxClients} {fd : Int}
  {table : Sessions Int SocketCall} {traffic traffic' : List SocketAccess}

theorem start_holds (listenerFd : Int) : (start listenerFd).Holds Sessions.none where
  used _ h := by cases h
  only _ _ h := by cases h
  distinct _ _ h := by cases h
  serves := Sessions.none_all

theorem Holds.congr (h : s.Holds table) (hclients : s'.clients = s.clients) : s'.Holds table where
  used := by rw [hclients]; exact h.used
  only := by rw [hclients]; exact h.only
  distinct := by unfold Distinct; rw [hclients]; exact h.distinct
  serves := h.serves

theorem Keeps.nil (h : s.Holds table) : s.Keeps table [] :=
  ⟨.nil h.serves, table, rfl, h⟩

theorem Keeps.append (h : s.Keeps table traffic)
    (h' : ∀ table', s.Holds table' → s'.Keeps table' traffic') :
    s'.Keeps table (traffic ++ traffic') := by
  obtain ⟨hsound, table', hrun, hholds⟩ := h
  obtain ⟨hsound', table'', hrun', hholds'⟩ := h' table' hholds
  refine ⟨hsound.append hrun hsound', table'', ?_, hholds'⟩
  rw [Sessions.run_append_of hrun, hrun']

/-- A descriptor that belongs to no client in use is not open. -/
theorem Holds.unopened (h : s.Holds table) (hfd : s.Unopened fd) : table fd = none := by
  rcases hlog : table fd with _ | log
  · rfl
  · obtain ⟨pos, hused, heq⟩ := h.only fd log hlog
    exact absurd heq (hfd.2 pos hused)

/-- **A client is closed.** -/
theorem Holds.close (h : s.Holds table) (pos : Fin serverMaxClients) :
    (s.closeClient pos).Keeps table (s.closeTraffic pos) := by
  unfold closeClient closeTraffic
  by_cases hused : (s.clients pos).used = true
  · rw [if_pos hused, if_pos hused]
    obtain ⟨log, hlog, -⟩ := h.used pos hused
    obtain ⟨hsound, hrun⟩ := Sessions.Sound.closed h.serves hlog
    refine ⟨hsound, _, hrun, ?_, ?_, ?_, hsound.all hrun⟩
    all_goals
      generalize hs' : (s.unregister (s.clients pos).fd).setClient pos
        { fd := -1, used := false, conn := .zero } = s'
      have hself : (s'.clients pos).used = false := by rw [← hs', setClient_self]
      have hother : ∀ i, i ≠ pos → s'.clients i = s.clients i := by
        intro i hi
        rw [← hs', setClient_ne _ hi]
        rfl
      have hne : ∀ i, (s'.clients i).used = true → i ≠ pos := by
        rintro i hi rfl
        rw [hself] at hi
        cases hi
    · -- the other clients keep their descriptors, and these are not the one that is closed
      intro i hi
      have hpos := hne i hi
      rw [hother i hpos] at hi ⊢
      rw [Sessions.set_ne fun heq => hpos (h.distinct i pos hi hused heq)]
      exact h.used i hi
    · -- an open socket belongs to another client
      intro fd log' hopen
      by_cases hfd : fd = (s.clients pos).fd
      · rw [hfd, Sessions.set_self] at hopen
        cases hopen
      · rw [Sessions.set_ne hfd] at hopen
        obtain ⟨i, hi, heq⟩ := h.only fd log' hopen
        have hpos : i ≠ pos := by
          rintro rfl
          exact hfd heq.symm
        exact ⟨i, by rwa [hother i hpos], by rwa [hother i hpos]⟩
    · intro i j hi hj hij
      have hi' := hother i (hne i hi)
      have hj' := hother j (hne j hj)
      rw [hi'] at hi hij
      rw [hj'] at hj hij
      exact h.distinct i j hi hj hij
  · rw [if_neg hused, if_neg hused]
    exact .nil h

/-- A new client comes into use at a place that is free. -/
theorem allocClient_spec (halloc : s.allocClient fd = some (pos, s')) :
    (s.clients pos).used = false
      ∧ s' = s.setClient pos { fd, used := true, conn := Connection.init } := by
  unfold allocClient at halloc
  rcases hfree : (List.finRange serverMaxClients).find? (fun pos => !(s.clients pos).used)
    with _ | free
  · rw [hfree] at halloc
    cases halloc
  · rw [hfree] at halloc
    cases halloc
    have hp := List.find?_some hfree
    exact ⟨by simpa using hp, rfl⟩

/-- **A client is allocated** for a descriptor that has just been opened. -/
theorem Holds.alloc (h : s.Holds table) (hfd : s.Unopened fd)
    (halloc : s.allocClient fd = some (pos, s')) : s'.Holds (table.set fd (some [])) := by
  obtain ⟨hfree, rfl⟩ := allocClient_spec halloc
  have hpos : ∀ i, (s.clients i).used = true → i ≠ pos := by
    rintro i hi rfl
    rw [hfree] at hi
    cases hi
  have hself := setClient_self s pos { fd, used := true, conn := Connection.init }
  have hother := fun i (hi : i ≠ pos) =>
    setClient_ne s hi { fd, used := true, conn := Connection.init }
  generalize s.setClient pos { fd, used := true, conn := Connection.init } = s' at hself hother
  -- the descriptor is not one in use, so no other log is replaced
  have hold : ∀ i, i ≠ pos → (s'.clients i).used = true → (s'.clients i).fd ≠ fd := by
    intro i hi hused
    rw [hother i hi] at hused ⊢
    exact hfd.2 i hused
  refine ⟨fun i hi => ?_, fun fd' log hopen => ?_, fun i j hi hj hij => ?_, h.serves.set ?_⟩
  · by_cases hi' : i = pos
    · subst hi'
      rw [hself, Sessions.set_self]
      exact ⟨[], rfl, rfl⟩
    · rw [Sessions.set_ne (hold i hi' hi)]
      rw [hother i hi'] at hi ⊢
      exact h.used i hi
  · by_cases hfd' : fd' = fd
    · exact ⟨pos, by rw [hself], by rw [hself, hfd']⟩
    · rw [Sessions.set_ne hfd'] at hopen
      obtain ⟨i, hi, heq⟩ := h.only fd' log hopen
      have hne := hpos i hi
      exact ⟨i, by rwa [hother i hne], by rwa [hother i hne]⟩
  · by_cases hi' : i = pos <;> by_cases hj' : j = pos
    · exact hi'.trans hj'.symm
    · rw [hi', hself] at hij
      exact absurd hij.symm (hold j hj' hj)
    · rw [hj', hself] at hij
      exact absurd hij (hold i hi' hi)
    · rw [hother i hi'] at hi hij
      rw [hother j hj'] at hj hij
      exact h.distinct i j hi hj hij
  · intro log hlog
    rw [← Option.some.inj hlog]
    trivial

/-- **One descriptor from `accept`.** It is closed again, or it belongs to a new client. -/
theorem Holds.accept (h : s.Holds table) (hfd : s.Unopened fd) (nonblock added : Bool) :
    (s.acceptClient fd nonblock added).Keeps table (s.acceptTraffic fd nonblock added) := by
  obtain ⟨hsound, hrun⟩ := Sessions.Sound.opened h.serves (h.unopened hfd) (by trivial)
  have hopen : (table.set fd (some [])) fd = some [] := Sessions.set_self _ _ _
  -- the descriptor is closed before it belongs to a client
  have hclose : s.Keeps table [.opened fd, .closed fd] := by
    obtain ⟨hsound', hrun'⟩ := Sessions.Sound.closed (hsound.all hrun) hopen
    refine ⟨hsound.append hrun hsound', table, ?_, h⟩
    show table.run ([.opened fd] ++ [.closed fd]) = some table
    rw [Sessions.run_append_of hrun, hrun', Sessions.set_set, Sessions.set_same (h.unopened hfd)]
  unfold acceptTraffic acceptClient
  by_cases hblock : nonblock = false
  · rw [if_pos hblock, if_pos hblock]
    exact hclose
  · rw [if_neg hblock, if_neg hblock]
    rcases halloc : s.allocClient fd with _ | ⟨pos, s'⟩
    · exact hclose
    · have hholds := h.alloc hfd halloc
      have hone : s'.Keeps table [.opened fd] := ⟨hsound, _, hrun, hholds⟩
      simp only
      by_cases hadd : added = false
      · rw [if_pos hadd, if_pos hadd]
        have hboth : (s'.closeClient pos).Keeps table ([.opened fd] ++ s'.closeTraffic pos) :=
          hone.append fun _ h' => h'.close pos
        exact hboth
      · rw [if_neg hadd, if_neg hadd]
        obtain ⟨hs, table', hr, hh⟩ := hone
        exact ⟨hs, table', hr, hh.congr rfl⟩

theorem Holds.accepts (h : s.Holds table) {outcomes : List AcceptOutcome}
    (hopen : s.AcceptsUnopened outcomes) (last : AcceptEnd) :
    (s.acceptClients outcomes last).2.Keeps table (s.acceptsTraffic outcomes) := by
  induction outcomes generalizing s table with
  | nil => cases last <;> exact .nil h
  | cons outcome rest ih =>
      cases outcome with
      | interrupted => exact ih h hopen
      | accepted fd nonblock added =>
          exact (h.accept hopen.1 nonblock added).append fun _ h' => ih h' hopen.2

/-- **Reads and writes for a client** continue the log of its socket. -/
theorem Holds.uses (h : s.Holds table) (hused : (s.clients pos).used = true)
    {log calls : List SocketCall} (hlog : table (s.clients pos).fd = some log)
    (hserves : (exec (log.map SocketCall.op)).Serves calls) {client : Client}
    (hfd : client.fd = (s.clients pos).fd) (hused' : client.used = true)
    (hconn : (exec ((log ++ calls).map SocketCall.op)).conn = client.conn) :
    (s.setClient pos client).Keeps table (calls.map (.used (s.clients pos).fd)) := by
  have hrun := Sessions.run_uses hlog calls
  have hsound := Sessions.Sound.uses h.serves hlog fun before hpre =>
    (h.serves _ _ hlog).append (hserves.before hpre)
  have hself := setClient_self s pos client
  have hother := fun i (hi : i ≠ pos) => setClient_ne s hi client
  generalize s.setClient pos client = s' at hself hother
  -- in use before, with the same descriptor
  have hkept : ∀ i, (s'.clients i).used = (s.clients i).used
      ∧ (s'.clients i).fd = (s.clients i).fd := by
    intro i
    by_cases hi : i = pos
    · subst hi
      rw [hself]
      exact ⟨hused'.trans hused.symm, hfd⟩
    · rw [hother i hi]
      exact ⟨rfl, rfl⟩
  refine ⟨hsound, _, hrun, ?_, ?_, ?_, hsound.all hrun⟩
  · intro i hi
    rw [(hkept i).1] at hi
    by_cases hpos : i = pos
    · subst hpos
      rw [hself, hfd, Sessions.set_self]
      exact ⟨_, rfl, hconn⟩
    · rw [hother i hpos, Sessions.set_ne fun heq => hpos (h.distinct i pos hi hused heq)]
      exact h.used i hi
  · intro fd log' hopen
    obtain ⟨i, hi, heq⟩ : ∃ i, (s.clients i).used = true ∧ (s.clients i).fd = fd := by
      by_cases hfd' : fd = (s.clients pos).fd
      · exact ⟨pos, hused, hfd'.symm⟩
      · rw [Sessions.set_ne hfd'] at hopen
        exact h.only fd log' hopen
    exact ⟨i, (hkept i).1.trans hi, (hkept i).2.trans heq⟩
  · intro i j hi hj hij
    rw [(hkept i).1] at hi
    rw [(hkept j).1] at hj
    rw [(hkept i).2, (hkept j).2] at hij
    exact h.distinct i j hi hj hij

/-- **One turn.** -/
theorem Holds.turn (h : s.Holds table) {t : Turn}
    (hopen : s.AcceptsUnopened t.accepts.outcomes) :
    (s.turn t).Keeps table (s.turnTraffic t) := by
  unfold Server.turn turnTraffic
  -- an event of the listener, of a client, or of a descriptor that is no longer in use
  by_cases hfd : t.event.fd = s.listenerFd
  · rw [if_pos hfd, if_pos hfd]
    by_cases hreadable : t.event.readable = true
    · rw [if_pos hreadable, if_pos hreadable]
      obtain ⟨hsound, table', hrun, hholds⟩ := h.accepts hopen t.accepts.last
      refine ⟨hsound, table', hrun, ?_⟩
      simp only
      split
      · exact hholds.congr rfl
      · exact hholds
    · rw [if_neg hreadable, if_neg hreadable]
      exact .nil h
  · rw [if_neg hfd, if_neg hfd]
    rcases hfind : s.findClient t.event.fd with _ | pos
    · exact .nil h
    · obtain ⟨hused, -⟩ := findClient_eq_some hfind
      obtain ⟨log, hlog, hconn⟩ := h.used pos hused
      obtain ⟨-, -, -, -, hfd', hused'⟩ :=
        handleClient_spec (s.clients pos) t.event t.reads t.writes
      obtain ⟨hserves, hafter⟩ := handlingCalls_serves hconn t.event t.reads t.writes
      have hcalls := h.uses hused hlog hserves hfd' (hused'.trans hused) (by
        rw [List.map_append, exec_append]
        exact hafter)
      simp only
      -- the client is closed after its calls, or its registration is changed, which is no access
      by_cases hcloses : (s.handling t pos).closes = true
      · rw [if_pos hcloses, if_pos hcloses]
        exact hcalls.append fun _ h' => h'.close pos
      · rw [if_neg hcloses, if_neg hcloses, List.append_nil]
        obtain ⟨hsound, table', hrun, hholds⟩ := hcalls
        refine ⟨hsound, table', hrun, ?_⟩
        rcases (s.handling t pos).interest with _ | wantWrite
        · exact hholds
        · exact hholds.congr rfl

/-- **Turns in a row.** -/
theorem Holds.turns (h : s.Holds table) {ts : List Turn} (hposs : s.Possible ts) :
    (s.turns ts).Keeps table (s.turnsTraffic ts) := by
  induction ts generalizing s table with
  | nil => exact .nil h
  | cons t ts ih => exact (h.turn hposs.1).append fun _ h' => ih h' hposs.2

/-- **The clients are closed** one after the other. -/
theorem Holds.shutdown (h : s.Holds table) (ps : List (Fin serverMaxClients)) :
    (s.shutdown ps).Keeps table (s.shutdownTraffic ps) := by
  induction ps generalizing s table with
  | nil => exact .nil h
  | cons pos rest ih => exact (h.close pos).append fun _ h' => ih h'

end Server

/-! ## Results -/

/-- **Every client is served by a connection of its own.** Whatever the order of the events and
whatever the system calls return: at every moment the accesses so far are in order, and what has been
written to an open socket is what a run of a connection sends that is fed with what has been read
from this socket. The open sockets are those of the clients in use, and their connections are in the
state of their runs. -/
theorem sockets_sound {listenerFd : Int} {ts : List Turn}
    (hposs : (Server.start listenerFd).Possible ts) :
    (∀ before, before <+: (Server.start listenerFd).turnsTraffic ts →
      ∃ table, Sessions.none.run before = some table ∧ ∀ fd log, table fd = some log →
        writtenBytes log = (exec (log.map SocketCall.op)).sent
          ∧ readBytes log = (exec (log.map SocketCall.op)).received)
    ∧ ∃ table, Sessions.none.run ((Server.start listenerFd).turnsTraffic ts) = some table
      ∧ (∀ fd, (table fd).isSome = true ↔ ∃ pos,
        (((Server.start listenerFd).turns ts).clients pos).used = true
          ∧ (((Server.start listenerFd).turns ts).clients pos).fd = fd)
      ∧ ∀ pos, (((Server.start listenerFd).turns ts).clients pos).used = true → ∀ log,
        table (((Server.start listenerFd).turns ts).clients pos).fd = some log →
          (((Server.start listenerFd).turns ts).clients pos).conn
            = (exec (log.map SocketCall.op)).conn := by
  obtain ⟨hsound, table, hrun, hholds⟩ := (Server.start_holds listenerFd).turns hposs
  refine ⟨fun before hpre => ?_, table, hrun, fun fd => ?_, fun pos hused log hlog => ?_⟩
  · -- every prefix of the accesses is in order, and its logs are served by connections
    obtain ⟨table', hrun', hall⟩ := hsound before hpre
    refine ⟨table', hrun', fun fd log hlog => ?_⟩
    obtain ⟨hsent, hreceived⟩ := (hall fd log hlog).bytes
    exact ⟨hsent.symm, hreceived.symm⟩
  · -- the open sockets and the clients in use are the same
    constructor
    · intro hsome
      obtain ⟨log, hlog⟩ := Option.isSome_iff_exists.mp hsome
      exact hholds.only fd log hlog
    · rintro ⟨pos, hused, rfl⟩
      obtain ⟨log, hlog, -⟩ := hholds.used pos hused
      rw [hlog]
      rfl
  · obtain ⟨log', hlog', hconn⟩ := hholds.used pos hused
    rw [hlog'] at hlog
    rw [← Option.some.inj hlog, hconn]

/-- A client connects, sends the preface and takes the SETTINGS frame. -/
def quietTurns : List Turn := [connectTurn, quietTurn]

theorem quietTurns_possible : (Server.start 3).Possible quietTurns :=
  ⟨⟨⟨by decide, fun _ hused => by cases hused⟩, trivial⟩, trivial, trivial⟩

theorem sockets_sound_quiet : ∃ table, Sessions.none.run ((Server.start 3).turnsTraffic quietTurns)
    = some table ∧ ∀ fd log, table fd = some log →
      writtenBytes log = (exec (log.map SocketCall.op)).sent := by
  obtain ⟨table, hrun, hlogs⟩ := (sockets_sound quietTurns_possible).1 _ List.prefix_rfl
  exact ⟨table, hrun, fun fd log hlog => (hlogs fd log hlog).1⟩

/-- The output of a run is a sequence of well-formed frames. -/
theorem exec_wellFormed (ops : List Op) :
    ∃ fs, (exec ops).total = wireOf fs ∧ ∀ f ∈ fs, f.WellFormed := by
  have hb := exec_begun ops
  by_cases hseen : (exec ops).conn.prefaceSeen = true
  · refine ⟨_, hb.seen hseen, fun f hf => ?_⟩
    rcases List.mem_cons.mp hf with rfl | hf
    · exact serverSettingsFrame_wellFormed
    · obtain ⟨st, hst, hmem⟩ := List.mem_flatMap.mp hf
      exact exec_steps (Q := fun st => ∀ g ∈ st.queued, g.WellFormed)
        (fun hc => frameStep_wellFormed hc _) ops st hst f hmem
  · obtain ⟨-, -, ⟨-, htotal⟩ | ⟨-, htotal, -⟩⟩ := hb.unseen (by simpa using hseen)
    · exact ⟨[], htotal, by simp⟩
    · refine ⟨_, htotal, fun f hf => ?_⟩
      rw [List.mem_singleton.mp hf]
      exact wellFormed_of (by decide) (by simp [defaultMaxFrameSize]) rfl

/-- **Clients do not influence each other.** Take a socket at some moment of one run of the server and
a socket at some moment of another run, with whatever other clients and events. If the connections of
both have had the same calls, with or without errors, then the same bytes have been written to both.
What has been written to a socket is always the beginning of a sequence of well-formed frames. And if
only the same bytes have been read from both, in whatever chunks, without an error, then what has been
written to both is the beginning of one such sequence. -/
theorem sockets_independent {listenerFd listenerFd' : Int} {ts ts' : List Turn}
    (hposs : (Server.start listenerFd).Possible ts) (hposs' : (Server.start listenerFd').Possible ts')
    {before before' : List SocketAccess} (hpre : before <+: (Server.start listenerFd).turnsTraffic ts)
    (hpre' : before' <+: (Server.start listenerFd').turnsTraffic ts') {fd fd' : Int}
    {log log' : List SocketCall} (hlog : Sessions.logAfter before fd = some log)
    (hlog' : Sessions.logAfter before' fd' = some log') :
    (log.map SocketCall.op = log'.map SocketCall.op → writtenBytes log = writtenBytes log')
      ∧ (∃ fs, (∀ f ∈ fs, f.WellFormed) ∧ writtenBytes log <+: wireOf fs)
      ∧ (readBytes log = readBytes log' → (exec (log.map SocketCall.op)).AllOk →
        (exec (log'.map SocketCall.op)).AllOk →
          ∃ fs, (∀ f ∈ fs, f.WellFormed) ∧ writtenBytes log <+: wireOf fs
            ∧ writtenBytes log' <+: wireOf fs) := by
  have hserves : ∀ {listenerFd ts before fd log}, (Server.start listenerFd).Possible ts →
      before <+: (Server.start listenerFd).turnsTraffic ts →
      Sessions.logAfter before fd = some log → Run.start.Serves log := by
    intro listenerFd ts before fd log hposs hpre hlog
    obtain ⟨table, hrun, hopen⟩ := Sessions.logAfter_eq_some hlog
    obtain ⟨table', hrun', hall⟩ := ((Server.start_holds listenerFd).turns hposs).1 before hpre
    rw [hrun] at hrun'
    rw [← Option.some.inj hrun'] at hall
    exact hall fd log hopen
  obtain ⟨hsent, hreceived⟩ := (hserves hposs hpre hlog).bytes
  obtain ⟨hsent', hreceived'⟩ := (hserves hposs' hpre' hlog').bytes
  -- all the output is a sequence of frames, and the socket has had a part of it
  obtain ⟨fs, hfs, hwell⟩ := exec_wellFormed (log.map SocketCall.op)
  have hfront : writtenBytes log <+: wireOf fs := by
    rw [← hfs]
    exact ⟨_, congrArg (· ++ _) hsent.symm⟩
  refine ⟨fun hcalls => ?_, ⟨fs, hwell, hfront⟩, fun hread hok hok' => ⟨fs, hwell, hfront, ?_⟩⟩
  · calc writtenBytes log
        = (exec (log.map SocketCall.op)).sent := hsent.symm
      _ = (exec (log'.map SocketCall.op)).sent := by rw [hcalls]
      _ = writtenBytes log' := hsent'
  · -- both outputs are the one that the bytes call for
    have hsame : (exec (log.map SocketCall.op)).received
        = (exec (log'.map SocketCall.op)).received :=
      hreceived.trans ((congrArg _ hread).trans hreceived'.symm)
    have htotal : (exec (log.map SocketCall.op)).total = (exec (log'.map SocketCall.op)).total := by
      have houtcome := exec_outcome hok
      rw [hsame, ← exec_outcome hok'] at houtcome
      exact congrArg Prod.snd houtcome
    rw [← hfs, htotal]
    exact ⟨_, congrArg (· ++ _) hsent'.symm⟩

/-- Two clients that send the preface; the second one takes seven bytes. -/
theorem sockets_independent_quiet : ∃ fs : List Frame, (∀ f ∈ fs, f.WellFormed)
    ∧ writtenBytes [.got clientPreface, .wrote serverSettingsFrame.wire] <+: wireOf fs
    ∧ writtenBytes [.got clientPreface, .wrote (serverSettingsFrame.wire.take 7)] <+: wireOf fs :=
  (@sockets_independent 3 3 quietTurns
    [connectTurn, clientTurn [prefaceChunk] .again { counts := [7], last := .blocked }]
    quietTurns_possible
    ⟨⟨⟨by decide, fun _ hused => by cases hused⟩, trivial⟩, trivial, trivial⟩ _ _
    List.prefix_rfl List.prefix_rfl 7 7 _ _ (by decide +kernel) (by decide +kernel)).2.2 rfl
    (by decide +kernel) (by decide +kernel)

/-! ## The end of the server -/

/-- How many descriptors `accept` has returned. -/
def openedCount (traffic : List SocketAccess) : Nat :=
  traffic.countP fun access =>
    match access with
    | .opened _ => true
    | _ => false

theorem openedCount_append (traffic traffic' : List SocketAccess) :
    openedCount (traffic ++ traffic') = openedCount traffic + openedCount traffic' :=
  List.countP_append

namespace Server

variable {s s' : Server} {pos : Fin serverMaxClients} {table : Sessions Int SocketCall}

/-- Closing a client counts nothing and ends nothing. -/
theorem closeClient_counts (s : Server) (pos : Fin serverMaxClients) :
    (s.closeClient pos).acceptedCount = s.acceptedCount
      ∧ (s.closeClient pos).exitCode = s.exitCode := by
  unfold closeClient
  split <;> exact ⟨rfl, rfl⟩

theorem acceptClient_counts (s : Server) (fd : Int) (nonblock added : Bool) :
    (s.acceptClient fd nonblock added).acceptedCount
        ≤ s.acceptedCount + openedCount (s.acceptTraffic fd nonblock added)
      ∧ (s.acceptClient fd nonblock added).exitCode = s.exitCode := by
  have hone : 1 ≤ openedCount (s.acceptTraffic fd nonblock added) := by
    rw [acceptTraffic, openedCount, List.countP_cons_of_pos rfl]
    omega
  unfold acceptClient
  by_cases hblock : nonblock = false
  · rw [if_pos hblock]
    exact ⟨by omega, rfl⟩
  · rw [if_neg hblock]
    rcases halloc : s.allocClient fd with _ | ⟨pos, s'⟩
    · exact ⟨by simp, rfl⟩
    · obtain ⟨-, rfl⟩ := allocClient_spec halloc
      simp only
      by_cases hadd : added = false
      · rw [if_pos hadd]
        obtain ⟨hcount, hexit⟩ :=
          closeClient_counts (s.setClient pos { fd, used := true, conn := Connection.init }) pos
        exact ⟨by rw [hcount]; exact Nat.le_add_right _ _, hexit⟩
      · rw [if_neg hadd]
        refine ⟨?_, rfl⟩
        have hmod : (s.acceptedCount + 1) % 4294967296 ≤ s.acceptedCount + 1 := Nat.mod_le _ _
        exact hmod.trans (by omega)

theorem acceptClients_counts (s : Server) (outcomes : List AcceptOutcome) (last : AcceptEnd) :
    (s.acceptClients outcomes last).2.acceptedCount
        ≤ s.acceptedCount + openedCount (s.acceptsTraffic outcomes)
      ∧ (s.acceptClients outcomes last).2.exitCode = s.exitCode := by
  induction outcomes generalizing s with
  | nil => cases last <;> exact ⟨Nat.le_add_right _ _, rfl⟩
  | cons outcome rest ih =>
      cases outcome with
      | interrupted => exact ih s
      | accepted fd nonblock added =>
          obtain ⟨hcount, hexit⟩ := s.acceptClient_counts fd nonblock added
          obtain ⟨hcount', hexit'⟩ := ih (s.acceptClient fd nonblock added)
          refine ⟨?_, hexit'.trans hexit⟩
          rw [acceptsTraffic, openedCount_append]
          rw [acceptClients]
          omega

/-- **One turn** counts no more clients than it has got descriptors. -/
theorem turn_counts (s : Server) (t : Turn) :
    (s.turn t).acceptedCount ≤ s.acceptedCount + openedCount (s.turnTraffic t)
      ∧ ((s.turn t).exitCode = s.exitCode ∨ (s.turn t).exitCode = -1) := by
  unfold Server.turn turnTraffic
  by_cases hfd : t.event.fd = s.listenerFd
  · rw [if_pos hfd, if_pos hfd]
    by_cases hreadable : t.event.readable = true
    · rw [if_pos hreadable, if_pos hreadable]
      obtain ⟨hcount, hexit⟩ := s.acceptClients_counts t.accepts.outcomes t.accepts.last
      simp only
      split
      · exact ⟨hcount, Or.inr rfl⟩
      · exact ⟨hcount, Or.inl hexit⟩
    · rw [if_neg hreadable, if_neg hreadable]
      exact ⟨Nat.le_add_right _ _, Or.inl rfl⟩
  · rw [if_neg hfd, if_neg hfd]
    rcases hfind : s.findClient t.event.fd with _ | pos
    · exact ⟨Nat.le_add_right _ _, Or.inl rfl⟩
    · simp only
      by_cases hcloses : (s.handling t pos).closes = true
      · rw [if_pos hcloses]
        obtain ⟨hcount, hexit⟩ := closeClient_counts (s.setClient pos (s.handling t pos).client) pos
        exact ⟨by rw [hcount]; exact Nat.le_add_right _ _, Or.inl hexit⟩
      · rw [if_neg hcloses]
        rcases (s.handling t pos).interest with _ | wantWrite
        · exact ⟨Nat.le_add_right _ _, Or.inl rfl⟩
        · exact ⟨Nat.le_add_right _ _, Or.inl rfl⟩

theorem turns_counts (s : Server) (ts : List Turn) :
    (s.turns ts).acceptedCount ≤ s.acceptedCount + openedCount (s.turnsTraffic ts)
      ∧ ((s.turns ts).exitCode = s.exitCode ∨ (s.turns ts).exitCode = -1) := by
  induction ts generalizing s with
  | nil => exact ⟨Nat.le_add_right _ _, Or.inl rfl⟩
  | cons t ts ih =>
      obtain ⟨hcount, hexit⟩ := s.turn_counts t
      obtain ⟨hcount', hexit'⟩ := ih (s.turn t)
      refine ⟨?_, hexit'.elim (fun h => ?_) Or.inr⟩
      · rw [turnsTraffic, openedCount_append]
        exact hcount'.trans (by omega)
      · rcases hexit with h' | h'
        · exact Or.inl (h.trans h')
        · exact Or.inr (h.trans h')

theorem closeClient_used (s : Server) (pos i : Fin serverMaxClients)
    (hi : ((s.closeClient pos).clients i).used = true) : i ≠ pos ∧ (s.clients i).used = true := by
  unfold closeClient at hi
  by_cases hused : (s.clients pos).used = true
  · rw [if_pos hused] at hi
    have hpos : i ≠ pos := by
      rintro rfl
      rw [setClient_self] at hi
      cases hi
    rw [setClient_ne _ hpos] at hi
    exact ⟨hpos, hi⟩
  · rw [if_neg hused] at hi
    refine ⟨?_, hi⟩
    rintro rfl
    exact hused hi

/-- Behind the loop over the clients none of them is in use. -/
theorem shutdown_used {ps : List (Fin serverMaxClients)} {i : Fin serverMaxClients}
    (hi : ((s.shutdown ps).clients i).used = true) : i ∉ ps ∧ (s.clients i).used = true := by
  induction ps generalizing s with
  | nil => exact ⟨List.not_mem_nil, hi⟩
  | cons pos rest ih =>
      obtain ⟨hrest, hused⟩ := ih hi
      obtain ⟨hpos, hused'⟩ := s.closeClient_used pos i hused
      exact ⟨List.not_mem_cons_of_ne_of_not_mem hpos hrest, hused'⟩

end Server

variable {maxConnections : Nat} {s last : Server} {waits : List Wait} {traffic : List SocketAccess}
  {table : Sessions Int SocketCall}

/-- **The loop of the server** keeps the sockets in order. It ends with the exit code 0 only if all
the clients that it was to accept have come and are closed. -/
theorem serve_keeps (h : s.Holds table) (hexit : s.exitCode = 0) (hawaits : s.Awaits waits)
    (hserve : serve maxConnections s waits = some (last, traffic)) :
    last.Keeps table traffic ∧ last.acceptedCount ≤ s.acceptedCount + openedCount traffic
      ∧ (last.exitCode = 0 ∧ 0 < maxConnections ∧ maxConnections ≤ last.acceptedCount
          ∧ last.activeClientCount = 0 ∨ last.exitCode = -1) := by
  -- on the waits: the loop ends, fails, or goes on from the state that the turns leave
  induction waits generalizing s table traffic with
  | nil =>
      unfold serve at hserve
      by_cases hdone : maxConnections > 0 ∧ s.acceptedCount ≥ maxConnections
          ∧ s.activeClientCount = 0
      · rw [if_pos hdone] at hserve
        cases hserve
        exact ⟨.nil h, Nat.le_add_right _ _, Or.inl ⟨hexit, hdone⟩⟩
      · rw [if_neg hdone] at hserve
        cases hserve
  | cons wait rest ih =>
      unfold serve at hserve
      by_cases hdone : maxConnections > 0 ∧ s.acceptedCount ≥ maxConnections
          ∧ s.activeClientCount = 0
      · rw [if_pos hdone] at hserve
        cases hserve
        exact ⟨.nil h, Nat.le_add_right _ _, Or.inl ⟨hexit, hdone⟩⟩
      · rw [if_neg hdone] at hserve
        cases wait with
        | failed =>
            cases hserve
            exact ⟨.nil (h.congr rfl), Nat.le_add_right _ _, Or.inr rfl⟩
        | reported ts =>
            obtain ⟨-, hposs, hrest⟩ := hawaits
            have hkeeps := h.turns hposs
            obtain ⟨hcount, hcode⟩ := s.turns_counts ts
            simp only at hserve
            by_cases hfailed : (s.turns ts).exitCode ≠ 0
            · rw [if_pos hfailed] at hserve
              cases hserve
              refine ⟨hkeeps, hcount, Or.inr (hcode.resolve_left fun hsame => ?_)⟩
              exact hfailed (hsame.trans hexit)
            · rw [if_neg hfailed] at hserve
              rcases hnext : serve maxConnections (s.turns ts) rest with _ | ⟨last', traffic'⟩
              · rw [hnext] at hserve
                cases hserve
              · rw [hnext] at hserve
                cases hserve
                have hloop := fun table' h' =>
                  @ih (s.turns ts) traffic' table' h' (not_not.mp hfailed) hrest hnext
                obtain ⟨hsound, table', hrun, hholds⟩ := hkeeps
                obtain ⟨-, hcount', hend⟩ := hloop table' hholds
                refine ⟨Server.Keeps.append ⟨hsound, table', hrun, hholds⟩
                  fun table'' h'' => (hloop table'' h'').1, ?_, hend⟩
                rw [openedCount_append]
                omega

/-- **The server closes what it opens.** When `h2_server_run` returns, for whatever reason, every
descriptor that `accept` has returned has been closed exactly once, and nothing was done to a
descriptor that was not open. The exit code is 0 only if there was a number of clients to accept and
at least as many have come. -/
theorem server_closes_all {listenerFd : Int}
    (hawaits : (Server.start listenerFd).Awaits waits) {code : Int}
    (hrun : serverRun listenerFd maxConnections waits = some (code, traffic)) :
    Sessions.none.run traffic = some Sessions.none
      ∧ (code = 0 ∧ 0 < maxConnections ∧ maxConnections ≤ openedCount traffic ∨ code = -1) := by
  rw [serverRun] at hrun
  rcases hserve : serve maxConnections (Server.start listenerFd) waits with _ | ⟨last, loop⟩
  · rw [hserve] at hrun
    cases hrun
  · rw [hserve] at hrun
    cases hrun
    obtain ⟨hkeeps, hcount, hend⟩ := serve_keeps (Server.start_holds listenerFd) rfl hawaits hserve
    obtain ⟨-, table, hfollowed, hholds⟩ :=
      hkeeps.append fun _ h' => h'.shutdown (List.finRange serverMaxClients)
    refine ⟨?_, ?_⟩
    · have hclosed : table = Sessions.none := by
        funext fd
        rcases hopen : table fd with _ | log
        · rfl
        · obtain ⟨pos, hused, -⟩ := hholds.only fd log hopen
          exact absurd (List.mem_finRange pos) (Server.shutdown_used hused).1
      rw [hfollowed, hclosed]
    · rcases hend with ⟨hzero, hmax, henough, -⟩ | hfailed
      · refine Or.inl ⟨hzero, hmax, ?_⟩
        rw [openedCount_append]
        have hstart : (Server.start listenerFd).acceptedCount = 0 := rfl
        omega
      · exact Or.inr hfailed

/-- One client, which sends the preface, takes the SETTINGS frame and goes away. -/
def oneClientTraffic : List SocketAccess :=
  [.opened 7, .used 7 (.got clientPreface), .used 7 (.wrote serverSettingsFrame.wire), .closed 7]

theorem server_closes_all_one : Sessions.none.run oneClientTraffic = some Sessions.none :=
  (@server_closes_all 1 [.reported [connectTurn],
      .reported [clientTurn [prefaceChunk] .endOfFile { counts := [15], last := .blocked }]]
    oneClientTraffic 3
    ⟨by decide, ⟨⟨⟨by decide, fun _ hused => by cases hused⟩, trivial⟩, trivial⟩,
      by decide, ⟨trivial, trivial⟩, trivial⟩ 0 (by decide +kernel)).1

end C11Omo.Http2
