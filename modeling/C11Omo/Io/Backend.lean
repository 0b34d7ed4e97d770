import C11Omo.Http2.Sockets

set_option autoImplicit false

/-! # The server over a backend of `h2_io`

`Server.io` is what the server has last asked of `h2_io` for a descriptor. Here the server runs over
a backend, which keeps registrations in the kernel (`Host`), and a `Status` says what the kernel knows
of a descriptor when it looks for events. `Backend.Exact` is what the server relies on: a backend
that is exact holds the registrations of the listener and of the clients in use and no others
(`Host.Linked`), so that the results of `h2_io_mod_connection` and `h2_io_remove`, which the server
does not look at, tell nothing new.

A server that sleeps in `h2_io_wait` over an exact backend has nothing to do (`sleeping_done`).
-/

namespace C11Omo.Io

open C11Omo.Http2 C11Omo.Lib

/-! ## Backends -/

/-- Whether the kernel has memory for the entries that one call makes. -/
structure Memory where
  first : Bool
  second : Bool

/-- What the kernel knows of a descriptor: there is something to read or to accept, there is room for
output, the other side sends no more, the connection is broken in both directions. -/
structure Status where
  input : Bool
  space : Bool
  readClosed : Bool
  broken : Bool

def Status.ended (status : Status) : Bool := status.readClosed || status.broken

/-- `h2_io`, with what the kernel keeps for it. `closed` is what the kernel does when a descriptor is
closed, and `ready` are the events of a descriptor that it has for `h2_io_wait`. -/
structure Backend (κ : Type) where
  init : κ
  addListener : κ → Int → Memory → Int × κ
  addConnection : κ → Int → Memory → Int × κ
  modConnection : κ → Int → Bool → Int × κ
  remove : κ → Int → Int × κ
  closed : κ → Int → κ
  enough : Memory → Bool
  ready : κ → Int → Status → List IoEvent

section

variable {κ : Type}

/-- What the server relies on. `Rep listenerFd io kernel` says that the kernel holds the registration
of the listener, those in `io`, and no others; it is the backend's own notion. -/
structure Backend.Exact (b : Backend κ) (Rep : Int → (Int → Option Bool) → κ → Prop) : Prop where
  listener : ∀ {fd memory kernel}, b.addListener b.init fd memory = (0, kernel) →
    Rep fd (fun _ => none) kernel
  added : ∀ {l io kernel fd memory}, Rep l io kernel → fd ≠ l → io fd = none →
    b.enough memory = true → (b.addConnection kernel fd memory).1 = 0
      ∧ Rep l (Function.update io fd (some false)) (b.addConnection kernel fd memory).2
  failed : ∀ {l io kernel fd memory}, Rep l io kernel → fd ≠ l → io fd = none →
    b.enough memory = false → (b.addConnection kernel fd memory).1 ≠ 0
      ∧ Rep l io (b.closed (b.remove (b.addConnection kernel fd memory).2 fd).2 fd)
  modified : ∀ {l io kernel fd w w'}, Rep l io kernel → fd ≠ l → io fd = some w →
    (b.modConnection kernel fd w').1 = 0
      ∧ Rep l (Function.update io fd (some w')) (b.modConnection kernel fd w').2
  removed : ∀ {l io kernel fd}, Rep l io kernel → fd ≠ l →
    Rep l (Function.update io fd none) (b.closed (b.remove kernel fd).2 fd)
  closed : ∀ {l io kernel fd}, Rep l io kernel → fd ≠ l → io fd = none →
    Rep l io (b.closed kernel fd)
  ready : ∀ {l io kernel fd status}, Rep l io kernel → (b.ready kernel fd status ≠ []
    ↔ ∃ w, Function.update io l (some false) fd = some w
      ∧ (status.input || status.ended || w && status.space) = true)

/-! ## The server over a backend -/

/-- The server, and what the kernel keeps for its backend. The ghost `ended` says that the last event
of a client has set `close_after` while there was output left. -/
structure Host (κ : Type) where
  server : Server
  kernel : κ
  ended : Fin serverMaxClients → Bool

/-- An `accept` after which the loop goes on. -/
inductive HostAccept
  | interrupted
  | accepted (fd : Int) (nonblock : Bool) (memory : Memory)

/-- An event, and the outcomes of the system calls while it is handled. -/
structure HostTurn where
  event : IoEvent
  accepts : List HostAccept
  last : AcceptEnd
  reads : Reads
  writes : Writes

namespace Host

variable (b : Backend κ)

/-- The state after `h2_server_run` has registered its listener, if that goes well. -/
def start (listenerFd : Int) (memory : Memory) : Option (Host κ) :=
  match b.addListener b.init listenerFd memory with
  | (ret, kernel) =>
      if ret ≠ 0 then none
      else some { server := Server.start listenerFd, kernel, ended := fun _ => false }

/-- `h2_close_client`. -/
def closeClient (h : Host κ) (pos : Fin serverMaxClients) : Host κ :=
  if (h.server.clients pos).used then
    let (_, kernel) := b.remove h.kernel (h.server.clients pos).fd
    { server := h.server.closeClient pos
      kernel := b.closed kernel (h.server.clients pos).fd
      ended := Function.update h.ended pos false }
  else h

/-- What the loop of `h2_accept_clients` does with a new file descriptor. -/
def acceptClient (h : Host κ) (fd : Int) (nonblock : Bool) (memory : Memory) : Host κ :=
  if nonblock = false then { h with kernel := b.closed h.kernel fd }
  else
    match h.server.allocClient fd with
    | none => { h with kernel := b.closed h.kernel fd }
    | some (pos, server) =>
        let (ret, kernel) := b.addConnection h.kernel fd memory
        if ret ≠ 0 then closeClient b { h with server, kernel } pos
        else
          { h with
            server := { server.register fd false with
              acceptedCount := (server.acceptedCount + 1) % 4294967296 }
            kernel }

/-- `h2_accept_clients`. -/
def acceptClients (h : Host κ) : List HostAccept → AcceptEnd → Int × Host κ
  | [], .again => (0, h)
  | [], .failed => (-1, h)
  | .interrupted :: rest, last => h.acceptClients rest last
  | .accepted fd nonblock memory :: rest, last =>
      (h.acceptClient b fd nonblock memory).acceptClients rest last

/-- One iteration of the loop over the events in `h2_server_run`. -/
def turn (h : Host κ) (t : HostTurn) : Host κ :=
  if t.event.fd = h.server.listenerFd then
    if t.event.readable then
      let (ret, h) := h.acceptClients b t.accepts t.last
      if ret ≠ 0 then { h with server := { h.server with exitCode := -1 } } else h
    else h
  else
    match h.server.findClient t.event.fd with
    | none => h
    | some pos =>
        let handling := handleClient (h.server.clients pos) t.event t.reads t.writes
        let h := { h with
          server := h.server.setClient pos handling.client
          ended := Function.update h.ended pos (decide (handling.interest = none)) }
        if handling.closes then h.closeClient b pos
        else
          match handling.interest with
          | some wantWrite =>
              let (_, kernel) := b.modConnection h.kernel handling.client.fd wantWrite
              { h with server := h.server.register handling.client.fd wantWrite, kernel }
          | none => h

def turns (h : Host κ) (ts : List HostTurn) : Host κ := ts.foldl (turn b) h

end Host

/-! ## What the server sees -/

def HostAccept.plain (b : Backend κ) : HostAccept → AcceptOutcome
  | .interrupted => .interrupted
  | .accepted fd nonblock memory => .accepted fd nonblock (b.enough memory)

def HostTurn.plain (b : Backend κ) (t : HostTurn) : Turn where
  event := t.event
  accepts := { outcomes := t.accepts.map (HostAccept.plain b), last := t.last }
  reads := t.reads
  writes := t.writes

end

/-! ## The registrations of the server -/

section

variable {s s' : Server} {pos : Fin serverMaxClients} {fd : Int}

/-- The descriptors that are registered are those of the clients in use. -/
structure Registered (s : Server) : Prop where
  some_iff : ∀ fd, (∃ w, s.io fd = some w) ↔
    ∃ pos, (s.clients pos).used = true ∧ (s.clients pos).fd = fd
  distinct : s.Distinct
  listener : ∀ pos, (s.clients pos).used = true → (s.clients pos).fd ≠ s.listenerFd

theorem start_registered (listenerFd : Int) : Registered (Server.start listenerFd) where
  some_iff fd := by
    constructor
    · rintro ⟨w, hw⟩
      cases hw
    · rintro ⟨pos, hused, -⟩
      cases hused
  distinct i _ hi := by cases hi
  listener _ hi := by cases hi

theorem Registered.io_none (h : Registered s) (hfd : s.Unopened fd) : s.io fd = none := by
  rcases hio : s.io fd with _ | w
  · rfl
  · obtain ⟨pos, hused, heq⟩ := (h.some_iff fd).mp ⟨w, hio⟩
    exact absurd heq (hfd.2 pos hused)

/-- The same clients are in use with the same descriptors. -/
theorem Registered.congr (h : Registered s) (hlistener : s'.listenerFd = s.listenerFd)
    (hio : ∀ fd, (∃ w, s'.io fd = some w) ↔ ∃ w, s.io fd = some w)
    (hused : ∀ i, (s'.clients i).used = (s.clients i).used)
    (hfd : ∀ i, (s.clients i).used = true → (s'.clients i).fd = (s.clients i).fd) :
    Registered s' where
  some_iff fd := by
    rw [hio, h.some_iff]
    constructor
    · rintro ⟨pos, hpos, heq⟩
      exact ⟨pos, (hused pos).trans hpos, (hfd pos hpos).trans heq⟩
    · rintro ⟨pos, hpos, heq⟩
      rw [hused] at hpos
      exact ⟨pos, hpos, (hfd pos hpos).symm.trans heq⟩
  distinct i j hi hj hij := by
    rw [hused] at hi hj
    rw [hfd i hi, hfd j hj] at hij
    exact h.distinct i j hi hj hij
  listener i hi := by
    rw [hused] at hi
    rw [hfd i hi, hlistener]
    exact h.listener i hi

theorem closeClient_same (hused : (s.clients pos).used = true) :
    (s.closeClient pos).listenerFd = s.listenerFd
      ∧ (s.closeClient pos).io = Function.update s.io (s.clients pos).fd none
      ∧ ((s.closeClient pos).clients pos).used = false
      ∧ ∀ i, i ≠ pos → (s.closeClient pos).clients i = s.clients i := by
  rw [Server.closeClient, if_pos hused]
  refine ⟨rfl, rfl, ?_, fun i hi => Server.setClient_ne _ hi _⟩
  rw [Server.setClient_self]

/-- **A client is closed.** -/
theorem Registered.close (h : Registered s) (pos : Fin serverMaxClients) :
    Registered (s.closeClient pos) := by
  by_cases hused : (s.clients pos).used = true
  · obtain ⟨hlistener, hio, hself, hother⟩ := closeClient_same hused
    generalize s.closeClient pos = s' at hlistener hio hself hother ⊢
    -- the clients in use are those of before, without this one
    have hne : ∀ i, (s'.clients i).used = true → i ≠ pos := by
      rintro i hi rfl
      rw [hself] at hi
      cases hi
    refine ⟨fun fd => ?_, fun i j hi hj hij => ?_, fun i hi => ?_⟩
    · rw [hio]
      by_cases hfd : fd = (s.clients pos).fd
      · subst hfd
        rw [Function.update_self]
        constructor
        · rintro ⟨w, hw⟩
          cases hw
        · rintro ⟨i, hi, heq⟩
          have hpos := hne i hi
          rw [hother i hpos] at hi heq
          exact absurd (h.distinct i pos hi hused heq) hpos
      · rw [Function.update_of_ne hfd, h.some_iff]
        constructor
        · rintro ⟨i, hi, rfl⟩
          have hpos : i ≠ pos := by
            rintro rfl
            exact hfd rfl
          exact ⟨i, by rwa [hother i hpos], by rw [hother i hpos]⟩
        · rintro ⟨i, hi, heq⟩
          have hpos := hne i hi
          rw [hother i hpos] at hi heq
          exact ⟨i, hi, heq⟩
    · have hi' := hother i (hne i hi)
      have hj' := hother j (hne j hj)
      rw [hi'] at hi hij
      rw [hj'] at hj hij
      exact h.distinct i j hi hj hij
    · have hi' := hother i (hne i hi)
      rw [hlistener, hi']
      rw [hi'] at hi
      exact h.listener i hi
  · rw [Server.closeClient, if_neg hused]
    exact h

/-- **A client is registered** in a place that was free. -/
theorem Registered.add (h : Registered s) (hopen : s.Unopened fd)
    (hfree : (s.clients pos).used = false) (hself : (s'.clients pos).fd = fd)
    (hself' : (s'.clients pos).used = true)
    (hother : ∀ i, i ≠ pos → s'.clients i = s.clients i)
    (hio : s'.io = Function.update s.io fd (some false)) (hlistener : s'.listenerFd = s.listenerFd) :
    Registered s' := by
  -- the new descriptor is not one of a client in use
  have hold : ∀ i, i ≠ pos → (s'.clients i).used = true → (s'.clients i).fd ≠ fd := by
    intro i hi hused
    rw [hother i hi] at hused ⊢
    exact hopen.2 i hused
  refine ⟨fun fd' => ?_, fun i j hi hj hij => ?_, fun i hi => ?_⟩
  · rw [hio]
    by_cases hfd : fd' = fd
    · subst hfd
      rw [Function.update_self]
      exact iff_of_true ⟨false, rfl⟩ ⟨pos, hself', hself⟩
    · rw [Function.update_of_ne hfd, h.some_iff]
      constructor
      · rintro ⟨i, hi, heq⟩
        have hpos : i ≠ pos := by
          rintro rfl
          rw [hfree] at hi
          cases hi
        exact ⟨i, by rwa [hother i hpos], by rwa [hother i hpos]⟩
      · rintro ⟨i, hi, heq⟩
        have hpos : i ≠ pos := by
          rintro rfl
          exact hfd (heq.symm.trans hself)
        rw [hother i hpos] at hi heq
        exact ⟨i, hi, heq⟩
  · -- two clients with one descriptor would both be the new one
    by_cases hi' : i = pos <;> by_cases hj' : j = pos
    · exact hi'.trans hj'.symm
    · rw [hi', hself] at hij
      exact absurd hij.symm (hold j hj' hj)
    · rw [hj', hself] at hij
      exact absurd hij (hold i hi' hi)
    · rw [hother i hi'] at hi hij
      rw [hother j hj'] at hj hij
      exact h.distinct i j hi hj hij
  · rw [hlistener]
    by_cases hi' : i = pos
    · rw [hi', hself]
      exact hopen.1
    · rw [hother i hi'] at hi ⊢
      exact h.listener i hi

end

/-- Reading that ends with `EAGAIN` fails only for a connection that has failed and has no output. -/
theorem readClient_again (client : Client) (outcomes : List ReadOutcome)
    (hret : (readClient client outcomes .again).ret ≠ 0) :
    (readClient client outcomes .again).client.conn.wantsWrite = false := by
  induction outcomes generalizing client with
  | nil => exact absurd rfl hret
  | cons outcome rest ih =>
      cases outcome with
      | interrupted => exact ih client hret
      | got chunk =>
          rw [readClient] at hret ⊢
          generalize client.conn.feed chunk.bytes = fed at hret ⊢
          rcases fed with ⟨code, conn⟩
          simp only at hret ⊢
          by_cases hstop : code ≠ .ok ∧ conn.wantsWrite = false
          · rw [if_pos hstop]
            exact hstop.2
          · rw [if_neg hstop] at hret ⊢
            exact ih { client with conn } hret

/-- **Only the kernel ends a client that stays open**: it has reported the event as closed, answered a
`read` with the end of the file or an error, or a `write` with an error. -/
theorem handleClient_ended {client : Client} {event : IoEvent} {reads : Reads} {writes : Writes}
    (hinterest : (handleClient client event reads writes).interest = none)
    (hstays : (handleClient client event reads writes).closes = false) :
    event.closed = true ∨ event.readable = true ∧ reads.last ≠ .again ∨ writes.last = .failed := by
  obtain ⟨-, -, hcloses, hnone, -, -⟩ := handleClient_spec client event reads writes
  rw [hinterest] at hnone
  rw [← Bool.not_eq_true, hcloses, not_and] at hstays
  by_contra hnot
  rw [not_or, not_or, not_and, not_not] at hnot
  obtain ⟨hopen, hagain, hwrites⟩ := hnot
  have hfails : ¬ writes.FailsOn (pendingOutput client event reads) := fun h => hwrites h.1
  by_cases hends : ReadEnds client event reads
  · -- the connection has failed, and has nothing to flush
    refine hstays hends ?_
    have hret := hends.resolve_right hopen
    have hread : event.readable = true := by
      by_contra hidle
      rw [readEvent, if_neg hidle] at hret
      exact hret rfl
    rw [readEvent, if_pos hread, hagain hread] at hret
    have hempty := Connection.wantsWrite_eq_false.mp (readClient_again client _ hret)
    rw [pendingOutput, readEvent, if_pos hread, hagain hread, hempty]
    exact Nat.zero_le _
  · rw [if_neg (not_or.mpr ⟨hends, hfails⟩)] at hnone
    cases hnone

theorem acceptClients_listenerFd (s : Server) (outcomes : List AcceptOutcome) (last : AcceptEnd) :
    (s.acceptClients outcomes last).2.listenerFd = s.listenerFd := by
  have hclose : ∀ (s : Server) pos, (s.closeClient pos).listenerFd = s.listenerFd := by
    intro s pos
    unfold Server.closeClient
    split <;> rfl
  induction outcomes generalizing s with
  | nil => cases last <;> rfl
  | cons outcome rest ih =>
      cases outcome with
      | interrupted => exact ih s
      | accepted fd nonblock added =>
          refine (ih _).trans ?_
          unfold Server.acceptClient
          by_cases hblock : nonblock = false
          · rw [if_pos hblock]
          · rw [if_neg hblock]
            rcases halloc : s.allocClient fd with _ | ⟨pos, s'⟩
            · rfl
            · obtain ⟨-, rfl⟩ := Server.allocClient_spec halloc
              simp only
              by_cases hadd : added = false
              · rw [if_pos hadd, hclose]
                rfl
              · rw [if_neg hadd]
                rfl

/-- The listener stays. -/
theorem turns_listenerFd (s : Server) (ts : List Turn) :
    (s.turns ts).listenerFd = s.listenerFd := by
  induction ts generalizing s with
  | nil => rfl
  | cons t ts ih =>
      refine (ih (s.turn t)).trans ?_
      have haccepts := acceptClients_listenerFd s t.accepts.outcomes t.accepts.last
      unfold Server.turn Server.closeClient
      dsimp only
      repeat' split
      all_goals first
        | exact haccepts
        | rfl

/-! ## The host and the server -/

/-- A client whose interest is registered anew stays, and its interest is that of its connection. -/
theorem handleClient_interest (client : Client) (event : IoEvent) (reads : Reads) (writes : Writes) :
    ∀ w, (handleClient client event reads writes).interest = some w →
      (handleClient client event reads writes).closes = false
        ∧ w = (handleClient client event reads writes).client.conn.wantsWrite := by
  intro w hw
  simp only [handleClient] at hw ⊢
  split at hw
  · cases hw
  · rename_i hnot
    refine ⟨?_, (Option.some.inj hw).symm⟩
    rw [Bool.not_eq_true] at hnot
    rw [hnot, Bool.false_and]

section

variable {κ : Type} {b : Backend κ} {Rep : Int → (Int → Option Bool) → κ → Prop} {h : Host κ}
  {pos : Fin serverMaxClients} {fd : Int}

/-- The kernel holds what the server has asked for. The interest of a client in writing is that of
its connection, unless its end has been seen. -/
structure Host.Linked (Rep : Int → (Int → Option Bool) → κ → Prop) (h : Host κ) : Prop where
  registered : Registered h.server
  kernel : Rep h.server.listenerFd h.server.io h.kernel
  armed : ∀ pos, (h.server.clients pos).used = true → h.ended pos = false →
    h.server.io (h.server.clients pos).fd = some (h.server.clients pos).conn.wantsWrite
  free : ∀ pos, (h.server.clients pos).used = false → h.ended pos = false

namespace Host

theorem start_linked (hb : b.Exact Rep) {listenerFd : Int} {memory : Memory}
    (hstart : start b listenerFd memory = some h) :
    h.Linked Rep ∧ h.server = Server.start listenerFd := by
  rw [start] at hstart
  rcases hadd : b.addListener b.init listenerFd memory with ⟨ret, kernel⟩
  rw [hadd] at hstart
  simp only at hstart
  by_cases hret : ret ≠ 0
  · rw [if_pos hret] at hstart
    cases hstart
  · rw [if_neg hret] at hstart
    cases hstart
    rw [not_not.mp hret] at hadd
    refine ⟨⟨start_registered listenerFd, hb.listener hadd, fun _ hused => ?_, fun _ _ => rfl⟩, rfl⟩
    cases hused

theorem closeClient_server (h : Host κ) (pos : Fin serverMaxClients) :
    (h.closeClient b pos).server = h.server.closeClient pos := by
  unfold closeClient
  split
  · rfl
  · rename_i hused
    rw [Server.closeClient, if_neg hused]

/-- **A client is closed**, and the kernel has dropped its registration. -/
theorem Linked.closed (h' : h.Linked Rep) (hused : (h.server.clients pos).used = true) {kernel : κ}
    (hrep : Rep h.server.listenerFd
      (Function.update h.server.io (h.server.clients pos).fd none) kernel) :
    Linked Rep { server := h.server.closeClient pos, kernel
                 ended := Function.update h.ended pos false } := by
  have hreg := h'.registered.close pos
  obtain ⟨hlistener, hio, hself, hother⟩ := closeClient_same hused
  have hne : ∀ i, ((h.server.closeClient pos).clients i).used = true → i ≠ pos := by
    rintro i hi rfl
    rw [hself] at hi
    cases hi
  refine ⟨hreg, ?_, fun i hi hended => ?_, fun i hi => ?_⟩
  · show Rep (h.server.closeClient pos).listenerFd (h.server.closeClient pos).io _
    rw [hlistener, hio]
    exact hrep
  · have hpos := hne i hi
    simp only [hother i hpos] at hi ⊢
    simp only [Function.update_of_ne hpos] at hended
    rw [hio, Function.update_of_ne fun heq => hpos (h'.registered.distinct i pos hi hused heq)]
    exact h'.armed i hi hended
  · by_cases hpos : i = pos
    · subst hpos
      exact Function.update_self ..
    · simp only [hother i hpos] at hi
      exact (Function.update_of_ne hpos ..).trans (h'.free i hi)

theorem Linked.close (hb : b.Exact Rep) (h' : h.Linked Rep) (pos : Fin serverMaxClients) :
    (h.closeClient b pos).Linked Rep := by
  unfold closeClient
  by_cases hused : (h.server.clients pos).used = true
  · rw [if_pos hused]
    exact h'.closed hused (hb.removed h'.kernel (h'.registered.listener pos hused))
  · rw [if_neg hused]
    exact h'

/-- A client that comes into use for a descriptor from `accept`. -/
abbrev fresh (fd : Int) : Client := { fd, used := true, conn := Connection.init }

/-- A new client is registered. -/
theorem Linked.add (h' : h.Linked Rep) (hopen : h.server.Unopened fd)
    (hfree : (h.server.clients pos).used = false) {kernel : κ} {count : Nat}
    (hrep : Rep h.server.listenerFd (Function.update h.server.io fd (some false)) kernel) :
    Linked Rep { h with
      server := { (h.server.setClient pos (fresh fd)).register fd false with acceptedCount := count }
      kernel } := by
  have hself := Server.setClient_self h.server pos (fresh fd)
  have hother := fun i (hi : i ≠ pos) => Server.setClient_ne h.server hi (fresh fd)
  refine ⟨?_, hrep, fun i hi hended => ?_, fun i hi => ?_⟩
  · exact h'.registered.add hopen hfree (congrArg Client.fd hself) (congrArg Client.used hself)
      hother rfl rfl
  · by_cases hi' : i = pos
    · subst hi'
      show Function.update h.server.io fd (some false) ((h.server.setClient i _).clients i).fd
        = some ((h.server.setClient i _).clients i).conn.wantsWrite
      rw [hself, Function.update_self]
      rfl
    · change ((h.server.setClient pos _).clients i).used = true at hi
      rw [hother i hi'] at hi
      show Function.update h.server.io fd (some false) ((h.server.setClient pos _).clients i).fd
        = some ((h.server.setClient pos _).clients i).conn.wantsWrite
      rw [hother i hi', Function.update_of_ne (hopen.2 i hi)]
      exact h'.armed i hi hended
  · change ((h.server.setClient pos _).clients i).used = false at hi
    by_cases hi' : i = pos
    · subst hi'
      exact h'.free i hfree
    · rw [hother i hi'] at hi
      exact h'.free i hi

/-- A new client whose registration has failed is closed again, and everything is as before. -/
theorem Linked.undo (h' : h.Linked Rep) (hopen : h.server.Unopened fd)
    (hfree : (h.server.clients pos).used = false) {kernel : κ}
    (hrep : Rep h.server.listenerFd h.server.io kernel) :
    Linked Rep { server := (h.server.setClient pos (fresh fd)).closeClient pos, kernel
                 ended := Function.update h.ended pos false } := by
  have hself := Server.setClient_self h.server pos (fresh fd)
  have hother := fun i (hi : i ≠ pos) => Server.setClient_ne h.server hi (fresh fd)
  have hused : ((h.server.setClient pos (fresh fd)).clients pos).used = true := by rw [hself]
  obtain ⟨hlistener, hio, hcleared, hkept⟩ := closeClient_same hused
  have hio' : ((h.server.setClient pos (fresh fd)).closeClient pos).io = h.server.io := by
    rw [hio, hself]
    exact (congrArg _ (h'.registered.io_none hopen).symm).trans (Function.update_eq_self ..)
  generalize (h.server.setClient pos (fresh fd)).closeClient pos = s'
    at hlistener hio' hcleared hkept ⊢
  have hsame : ∀ i, i ≠ pos → s'.clients i = h.server.clients i :=
    fun i hi => (hkept i hi).trans (hother i hi)
  -- the place is unused again, and the table of the server is the old one
  have hreg : Registered s' := by
    refine h'.registered.congr hlistener (fun _ => by rw [hio']) (fun i => ?_) fun i hi => ?_
    · by_cases hi : i = pos
      · rw [hi, hcleared, hfree]
      · rw [hsame i hi]
    · have hi' : i ≠ pos := by
        rintro rfl
        rw [hfree] at hi
        cases hi
      rw [hsame i hi']
  refine ⟨hreg, ?_, fun i hi hended => ?_, fun i hi => ?_⟩
  · show Rep s'.listenerFd s'.io _
    rw [hlistener, hio']
    exact hrep
  · have hi' : i ≠ pos := by
      rintro rfl
      rw [hcleared] at hi
      cases hi
    simp only [hsame i hi', hio', Function.update_of_ne hi'] at hi hended ⊢
    exact h'.armed i hi hended
  · by_cases hi' : i = pos
    · subst hi'
      exact Function.update_self ..
    · simp only [hsame i hi'] at hi
      exact (Function.update_of_ne hi' ..).trans (h'.free i hi)

/-- **One descriptor from `accept`.** It is registered if the kernel has memory for it. -/
theorem Linked.accept (hb : b.Exact Rep) (h' : h.Linked Rep) (hopen : h.server.Unopened fd)
    (nonblock : Bool) (memory : Memory) : (h.acceptClient b fd nonblock memory).Linked Rep
      ∧ (h.acceptClient b fd nonblock memory).server
        = h.server.acceptClient fd nonblock (b.enough memory) := by
  have hnone := h'.registered.io_none hopen
  have hclosed : ({ h with kernel := b.closed h.kernel fd } : Host κ).Linked Rep :=
    { h' with kernel := hb.closed h'.kernel hopen.1 hnone }
  unfold acceptClient Server.acceptClient
  -- the ways out of `accept_clients` in its order: no flags, no place, no registration
  by_cases hblock : nonblock = false
  · rw [if_pos hblock, if_pos hblock]
    exact ⟨hclosed, rfl⟩
  · rw [if_neg hblock, if_neg hblock]
    rcases halloc : h.server.allocClient fd with _ | ⟨pos, s⟩
    · exact ⟨hclosed, rfl⟩
    · obtain ⟨hfree, rfl⟩ := Server.allocClient_spec halloc
      rcases hadd : b.addConnection h.kernel fd memory with ⟨ret, kernel⟩
      rcases henough : b.enough memory with _ | _
      · -- the call fails, and the client is closed again
        obtain ⟨hret, hrep⟩ := hb.failed h'.kernel hopen.1 hnone henough
        rw [hadd] at hret hrep
        simp only
        rw [if_pos hret, if_pos trivial]
        refine ⟨?_, closeClient_server _ pos⟩
        have hself := Server.setClient_self h.server pos (fresh fd)
        rw [closeClient, if_pos (by rw [hself])]
        simp only [hself]
        exact h'.undo hopen hfree hrep
      · obtain ⟨hret, hrep⟩ := hb.added h'.kernel hopen.1 hnone henough
        rw [hadd] at hret hrep
        simp only
        rw [if_neg (not_not.mpr hret), if_neg (by decide)]
        exact ⟨h'.add hopen hfree hrep, rfl⟩

theorem Linked.accepts (hb : b.Exact Rep) (h' : h.Linked Rep) {accepts : List HostAccept}
    (hopen : h.server.AcceptsUnopened (accepts.map (HostAccept.plain b))) (last : AcceptEnd) :
    (h.acceptClients b accepts last).2.Linked Rep
      ∧ (h.acceptClients b accepts last).2.server
        = (h.server.acceptClients (accepts.map (HostAccept.plain b)) last).2
      ∧ (h.acceptClients b accepts last).1
        = (h.server.acceptClients (accepts.map (HostAccept.plain b)) last).1 := by
  induction accepts generalizing h with
  | nil => cases last <;> exact ⟨h', rfl, rfl⟩
  | cons accept rest ih =>
      cases accept with
      | interrupted => exact ih h' hopen
      | accepted fd nonblock memory =>
          obtain ⟨hunopened, hrest⟩ := hopen
          obtain ⟨hlinked, hserver⟩ := h'.accept hb hunopened nonblock memory
          rw [← hserver] at hrest
          rw [List.map_cons, HostAccept.plain, Server.acceptClients, acceptClients, ← hserver]
          exact ih hlinked hrest

/-- A client has been handled: its place is set anew, and maybe its interest. -/
theorem Linked.handle (h' : h.Linked Rep) (hused : (h.server.clients pos).used = true)
    {client : Client} (hfd : client.fd = (h.server.clients pos).fd) (hused' : client.used = true)
    {ended : Bool} {io : Int → Option Bool} {kernel : κ} (hrep : Rep h.server.listenerFd io kernel)
    (hsome : ∃ w, io client.fd = some w) (hio : ∀ fd, fd ≠ client.fd → io fd = h.server.io fd)
    (hinterest : ended = false → io client.fd = some client.conn.wantsWrite) :
    Linked Rep {
      server := { h.server.setClient pos client with io }
      kernel
      ended := Function.update h.ended pos ended } := by
  have hself := Server.setClient_self h.server pos client
  have hother := fun i (hi : i ≠ pos) => Server.setClient_ne h.server hi client
  refine ⟨?_, hrep, fun i hi hended => ?_, fun i hi => ?_⟩
  · refine h'.registered.congr rfl (fun fd => ?_) (fun i => ?_) fun i hi => ?_
    · by_cases heq : fd = client.fd
      · rw [heq]
        refine iff_of_true hsome ?_
        rw [hfd]
        exact (h'.registered.some_iff _).mpr ⟨pos, hused, rfl⟩
      · show (∃ w, io fd = some w) ↔ _
        rw [hio fd heq]
    · by_cases hi' : i = pos
      · subst hi'
        exact (congrArg Client.used hself).trans (hused'.trans hused.symm)
      · exact congrArg Client.used (hother i hi')
    · by_cases hi' : i = pos
      · subst hi'
        exact (congrArg Client.fd hself).trans hfd
      · exact congrArg Client.fd (hother i hi')
  · -- nobody else has this descriptor
    by_cases hi' : i = pos
    · subst hi'
      simp only [Function.update_self] at hended
      show io ((h.server.setClient i client).clients i).fd
        = some ((h.server.setClient i client).clients i).conn.wantsWrite
      rw [hself]
      exact hinterest hended
    · simp only [Function.update_of_ne hi'] at hended
      change ((h.server.setClient pos client).clients i).used = true at hi
      show io ((h.server.setClient pos client).clients i).fd
        = some ((h.server.setClient pos client).clients i).conn.wantsWrite
      rw [hother i hi'] at hi ⊢
      rw [hio _ fun heq => hi' (h'.registered.distinct i pos hi hused (heq.trans hfd))]
      exact h'.armed i hi hended
  · change ((h.server.setClient pos client).clients i).used = false at hi
    by_cases hi' : i = pos
    · subst hi'
      rw [hself, hused'] at hi
      cases hi
    · rw [hother i hi'] at hi
      exact (Function.update_of_ne hi' ..).trans (h'.free i hi)

/-- **One turn** over the backend is one turn of the server, and the kernel still holds what the
server has asked for. -/
theorem Linked.turn (hb : b.Exact Rep) (h' : h.Linked Rep) {t : HostTurn}
    (hopen : h.server.AcceptsUnopened (t.plain b).accepts.outcomes) :
    (h.turn b t).Linked Rep ∧ (h.turn b t).server = h.server.turn (t.plain b) := by
  unfold Host.turn Server.turn
  by_cases hfd : t.event.fd = h.server.listenerFd
  · rw [if_pos hfd, if_pos (show (t.plain b).event.fd = h.server.listenerFd from hfd)]
    by_cases hreadable : t.event.readable = true
    · rw [if_pos hreadable, if_pos (show (t.plain b).event.readable = true from hreadable)]
      obtain ⟨hlinked, hserver, hret⟩ := h'.accepts hb hopen t.last
      change _ = (h.server.acceptClients (t.plain b).accepts.outcomes
        (t.plain b).accepts.last).2 at hserver
      change _ = (h.server.acceptClients (t.plain b).accepts.outcomes
        (t.plain b).accepts.last).1 at hret
      generalize h.server.acceptClients (t.plain b).accepts.outcomes
        (t.plain b).accepts.last = plain at hserver hret ⊢
      generalize h.acceptClients b t.accepts t.last = accepted at hlinked hserver hret ⊢
      rcases plain with ⟨ret, s⟩
      rcases accepted with ⟨ret', h''⟩
      obtain rfl : ret' = ret := hret
      obtain rfl : h''.server = s := hserver
      simp only
      by_cases hbad : ret' ≠ 0
      · rw [if_pos hbad, if_pos hbad]
        exact ⟨⟨hlinked.registered.congr rfl (fun _ => Iff.rfl) (fun _ => rfl) fun _ _ => rfl,
          hlinked.kernel, hlinked.armed, hlinked.free⟩, rfl⟩
      · rw [if_neg hbad, if_neg hbad]
        exact ⟨hlinked, rfl⟩
    · rw [if_neg hreadable, if_neg (show ¬ (t.plain b).event.readable = true from hreadable)]
      exact ⟨h', rfl⟩
  · rw [if_neg hfd, if_neg (show ¬ (t.plain b).event.fd = h.server.listenerFd from hfd)]
    rcases hfind : h.server.findClient t.event.fd with _ | pos
    · rw [show h.server.findClient (t.plain b).event.fd = none from hfind]
      exact ⟨h', rfl⟩
    · rw [show h.server.findClient (t.plain b).event.fd = some pos from hfind]
      obtain ⟨hused, -⟩ := Server.findClient_eq_some hfind
      obtain ⟨-, -, -, -, hfd', hused'⟩ :=
        handleClient_spec (h.server.clients pos) t.event t.reads t.writes
      have hclosing := handleClient_interest (h.server.clients pos) t.event t.reads t.writes
      have hhandling : h.server.handling (t.plain b) pos
        = handleClient (h.server.clients pos) t.event t.reads t.writes := rfl
      simp only
      rw [hhandling]
      generalize handleClient (h.server.clients pos) t.event t.reads t.writes = handling
        at hfd' hused' hclosing ⊢
      obtain ⟨w₀, hw₀⟩ := (h'.registered.some_iff _).mpr ⟨pos, hused, rfl⟩
      rw [← hfd'] at hw₀
      have hne : handling.client.fd ≠ h.server.listenerFd := by
        rw [hfd']
        exact h'.registered.listener pos hused
      rcases hinterest : handling.interest with _ | w
      · -- the registration stays as it was
        have hlinked := @handle _ _ _ _ h' hused _ hfd' (hused'.trans hused) true _ _ h'.kernel
          ⟨w₀, hw₀⟩ (fun _ _ => rfl) (by simp)
        by_cases hcloses : handling.closes = true
        · rw [if_pos hcloses, if_pos hcloses]
          exact ⟨Linked.close hb hlinked pos, closeClient_server _ pos⟩
        · rw [if_neg hcloses, if_neg hcloses]
          exact ⟨hlinked, rfl⟩
      · -- the interest is set anew, so the client stays
        obtain ⟨hcloses, hw⟩ := hclosing w hinterest
        obtain ⟨-, hrep⟩ := @Backend.Exact.modified _ _ _ hb _ _ _ _ _ w h'.kernel hne hw₀
        rw [if_neg (by simp [hcloses]), if_neg (by simp [hcloses])]
        refine ⟨@handle _ _ _ _ h' hused _ hfd' (hused'.trans hused) false _ _ hrep ⟨w, ?_⟩
          (fun fd hfd => ?_) fun _ => ?_, rfl⟩
        · exact Function.update_self ..
        · exact Function.update_of_ne hfd ..
        · rw [Function.update_self, hw]

theorem Linked.turns (hb : b.Exact Rep) (h' : h.Linked Rep) {ts : List HostTurn}
    (hposs : h.server.Possible (ts.map (HostTurn.plain b))) :
    (h.turns b ts).Linked Rep
      ∧ (h.turns b ts).server = h.server.turns (ts.map (HostTurn.plain b)) := by
  induction ts generalizing h with
  | nil => exact ⟨h', rfl⟩
  | cons t ts ih =>
      obtain ⟨hopen, hrest⟩ := hposs
      obtain ⟨hlinked, hserver⟩ := h'.turn hb hopen
      rw [← hserver] at hrest
      obtain ⟨hlinked', hserver'⟩ := ih hlinked hrest
      refine ⟨hlinked', hserver'.trans ?_⟩
      rw [hserver]
      rfl

/-- **The server over an exact backend** is what it would be if its own table said what is registered,
and the kernel always holds what is in that table. -/
theorem run_linked (hb : b.Exact Rep) {listenerFd : Int} {memory : Memory}
    (hstart : start b listenerFd memory = some h) {ts : List HostTurn}
    (hposs : (Server.start listenerFd).Possible (ts.map (HostTurn.plain b))) :
    (h.turns b ts).Linked Rep
      ∧ (h.turns b ts).server = (Server.start listenerFd).turns (ts.map (HostTurn.plain b))
      ∧ (h.turns b ts).server.listenerFd = listenerFd := by
  obtain ⟨hlinked, hserver⟩ := start_linked hb hstart
  rw [← hserver] at hposs
  obtain ⟨hlinked', hserver'⟩ := hlinked.turns hb hposs
  rw [hserver] at hserver'
  refine ⟨hlinked', hserver', ?_⟩
  rw [hserver', turns_listenerFd]
  rfl

/-- `h2_io_wait` has no event to report. -/
def Sleeps (b : Backend κ) (h : Host κ) (status : Int → Status) : Prop :=
  ∀ fd, b.ready h.kernel fd (status fd) = []

/-- A server whose registrations are all quiet has nothing to accept, and a client of it that has not
been seen to end has sent nothing that is not read and waits for nothing but room for its output. -/
theorem Linked.idle (h' : h.Linked Rep) {status : Int → Status}
    (hquiet : ∀ fd w, Function.update h.server.io h.server.listenerFd (some false) fd = some w →
      ((status fd).input || (status fd).ended || w && (status fd).space) = false) :
    (status h.server.listenerFd).input = false
      ∧ ∀ pos, (h.server.clients pos).used = true →
        (status (h.server.clients pos).fd).input = false
          ∧ (status (h.server.clients pos).fd).ended = false
          ∧ (h.ended pos = false → (status (h.server.clients pos).fd).space = true →
              (h.server.clients pos).conn.wantsWrite = false) := by
  constructor
  · have hlistener := hquiet _ _ (Function.update_self h.server.listenerFd (some false) h.server.io)
    simp only [Bool.or_eq_false_iff] at hlistener
    exact hlistener.1.1
  · intro pos hused
    have hne := h'.registered.listener pos hused
    obtain ⟨w, hw⟩ := (h'.registered.some_iff _).mpr ⟨pos, hused, rfl⟩
    have hclient := hquiet _ _ ((Function.update_of_ne hne ..).trans hw)
    simp only [Bool.or_eq_false_iff, Bool.and_eq_false_iff] at hclient
    obtain ⟨⟨hinput, hended⟩, hspace⟩ := hclient
    refine ⟨hinput, hended, fun hlive hroom => ?_⟩
    -- the interest that is registered is that of the connection
    rw [h'.armed pos hused hlive] at hw
    rw [Option.some.inj hw]
    exact hspace.resolve_right (by simp [hroom])

/-- **Nothing is left to do** by a server whose registrations are all quiet (`sleeping_done`). -/
theorem Linked.idle_done (h' : h.Linked Rep) {listenerFd : Int} {ts : List Turn}
    (hserver : h.server = (Server.start listenerFd).turns ts)
    (hposs : (Server.start listenerFd).Possible ts) {status : Int → Status}
    (hquiet : ∀ fd w, Function.update h.server.io h.server.listenerFd (some false) fd = some w →
      ((status fd).input || (status fd).ended || w && (status fd).space) = false)
    (hended : ∀ pos, h.ended pos = true → (status (h.server.clients pos).fd).ended = true)
    {arrived : Int → List UInt8}
    (harrived : ∀ fd log,
      Sessions.logAfter ((Server.start listenerFd).turnsTraffic ts) fd = some log →
        readBytes log ≠ arrived fd → (status fd).input = true) :
    (status listenerFd).input = false
      ∧ ∀ pos, (h.server.clients pos).used = true →
        ∃ log, Sessions.logAfter ((Server.start listenerFd).turnsTraffic ts)
            (h.server.clients pos).fd = some log
          ∧ readBytes log = arrived (h.server.clients pos).fd
          ∧ ((status (h.server.clients pos).fd).space = true →
              writtenBytes log = (exec (log.map SocketCall.op)).total
                ∧ ((exec (log.map SocketCall.op)).AllOk →
                  writtenBytes log = (outcome (arrived (h.server.clients pos).fd)).2)) := by
  obtain ⟨hlistener, hclients⟩ := h'.idle hquiet
  have hsame : h.server.listenerFd = listenerFd := by
    rw [hserver, turns_listenerFd]
    rfl
  rw [hsame] at hlistener
  refine ⟨hlistener, fun pos hused => ?_⟩
  obtain ⟨hinput, hnotended, hdrained⟩ := hclients pos hused
  -- the log of the socket is that of a run of the connection
  obtain ⟨-, table, hrun, hholds⟩ := (Server.start_holds listenerFd).turns hposs
  rw [← hserver] at hholds
  obtain ⟨log, hlog, hconn⟩ := hholds.used pos hused
  obtain ⟨hsent, hreceived⟩ := (hholds.serves _ log hlog).bytes
  have hafter : Sessions.logAfter ((Server.start listenerFd).turnsTraffic ts)
      (h.server.clients pos).fd = some log := by
    rw [Sessions.logAfter, hrun]
    exact hlog
  have hread : readBytes log = arrived (h.server.clients pos).fd := by
    by_contra hunread
    rw [harrived _ log hafter hunread] at hinput
    cases hinput
  refine ⟨log, hafter, hread, fun hroom => ?_⟩
  have hlive : h.ended pos = false := by
    by_contra hseen
    rw [hended pos (by simpa using hseen)] at hnotended
    cases hnotended
  have hnothing := Connection.wantsWrite_eq_false.mp (hdrained hlive hroom)
  have htotal : writtenBytes log = (exec (log.map SocketCall.op)).total := by
    rw [Obs.total, hconn, hnothing, List.append_nil]
    exact hsent.symm
  refine ⟨htotal, fun hok => ?_⟩
  have hanswer := congrArg Prod.snd (exec_outcome hok)
  rw [htotal, ← hread]
  exact hanswer.trans (congrArg (fun bytes => (outcome bytes).2) hreceived)

end Host

/-! ## A server that sleeps -/

/-- **A server that sleeps has nothing to do.** When `h2_io_wait` finds no event to report, nothing
waits to be accepted; and from every client all that has arrived has been read, and if its socket has
room all the output has been written, which without an error is the answer to what has arrived. Of
the kernel this takes that a socket with unread bytes has input, and that the end of a socket, once
the server has seen it, stays. -/
theorem sleeping_done (hb : b.Exact Rep) {listenerFd : Int} {memory : Memory}
    (hstart : Host.start b listenerFd memory = some h) {ts : List HostTurn}
    (hposs : (Server.start listenerFd).Possible (ts.map (HostTurn.plain b))) {status : Int → Status}
    (hsleep : (h.turns b ts).Sleeps b status)
    (hended : ∀ pos, (h.turns b ts).ended pos = true →
      (status ((h.turns b ts).server.clients pos).fd).ended = true)
    {arrived : Int → List UInt8}
    (harrived : ∀ fd log, Sessions.logAfter
      ((Server.start listenerFd).turnsTraffic (ts.map (HostTurn.plain b))) fd = some log →
        readBytes log ≠ arrived fd → (status fd).input = true) :
    (status listenerFd).input = false
      ∧ ∀ pos, ((h.turns b ts).server.clients pos).used = true →
        ∃ log, Sessions.logAfter ((Server.start listenerFd).turnsTraffic
            (ts.map (HostTurn.plain b))) ((h.turns b ts).server.clients pos).fd = some log
          ∧ readBytes log = arrived ((h.turns b ts).server.clients pos).fd
          ∧ ((status ((h.turns b ts).server.clients pos).fd).space = true →
              writtenBytes log = (exec (log.map SocketCall.op)).total
                ∧ ((exec (log.map SocketCall.op)).AllOk → writtenBytes log
                    = (outcome (arrived ((h.turns b ts).server.clients pos).fd)).2)) := by
  obtain ⟨hlinked, hserver, -⟩ := Host.run_linked hb hstart hposs
  refine hlinked.idle_done hserver hposs (fun fd w hw => ?_) hended harrived
  rw [← Bool.not_eq_true]
  intro hready
  exact (hb.ready hlinked.kernel).mpr ⟨w, hw, hready⟩ (hsleep fd)

/-! ## A quiet client -/

/-- A client connects, sends the preface and takes the SETTINGS frame. -/
def quietHostTurns : List HostTurn :=
  [ { event := connectTurn.event
      accepts := [HostAccept.accepted 7 true ⟨true, true⟩]
      last := .again
      reads := connectTurn.reads
      writes := connectTurn.writes },
    { event := quietTurn.event
      accepts := []
      last := .again
      reads := quietTurn.reads
      writes := quietTurn.writes } ]

theorem quietHostTurns_plain (henough : b.enough ⟨true, true⟩ = true) :
    quietHostTurns.map (HostTurn.plain b) = quietTurns := by
  show [HostTurn.plain b _, quietTurn] = [connectTurn, quietTurn]
  simp only [HostTurn.plain, List.map_cons, HostAccept.plain, henough]
  rfl

/-- Nothing to read, and room for output. -/
def idleStatus : Status := { input := false, space := true, readClosed := false, broken := false }

/-- The client in use is the one with the descriptor 7, and it has no output. -/
theorem quietTurns_client : ∀ pos, (((Server.start 3).turns quietTurns).clients pos).used = true →
    (((Server.start 3).turns quietTurns).clients pos).fd = 7 := by
  decide +kernel

/-- What has arrived from it. -/
def quietArrived (fd : Int) : List UInt8 := if fd = 7 then clientPreface else []

theorem quietTurns_arrived (fd : Int) (log : List SocketCall)
    (hlog : Sessions.logAfter ((Server.start 3).turnsTraffic quietTurns) fd = some log) :
    readBytes log = quietArrived fd := by
  obtain ⟨table, hrun, hopen⟩ := Sessions.logAfter_eq_some hlog
  obtain ⟨-, table', hrun', hholds⟩ := (Server.start_holds 3).turns quietTurns_possible
  rw [hrun] at hrun'
  obtain rfl := Option.some.inj hrun'
  obtain ⟨pos, hused, rfl⟩ := hholds.only fd log hopen
  rw [quietTurns_client pos hused] at hlog ⊢
  have hknown : Sessions.logAfter ((Server.start 3).turnsTraffic quietTurns) 7
      = some [.got clientPreface, .wrote serverSettingsFrame.wire] := by decide +kernel
  rw [hknown] at hlog
  rw [← Option.some.inj hlog]
  decide

/-- Nobody waits for room to write. -/
theorem quietTurns_interest (hregistered : Registered ((Server.start 3).turns quietTurns)) {fd : Int}
    {w : Bool} (hw : Function.update ((Server.start 3).turns quietTurns).io 3 (some false) fd
      = some w) : w = false := by
  have hlast : ((Server.start 3).turns quietTurns).io 7 = some false := by decide +kernel
  by_cases hfd : fd = 3
  · rw [hfd, Function.update_self] at hw
    exact (Option.some.inj hw).symm
  · rw [Function.update_of_ne hfd] at hw
    obtain ⟨pos, hused, rfl⟩ := (hregistered.some_iff fd).mp ⟨w, hw⟩
    rw [quietTurns_client pos hused, hlast] at hw
    exact (Option.some.inj hw).symm

theorem quiet_sleeps (hb : b.Exact Rep) {memory : Memory} (hstart : Host.start b 3 memory = some h)
    (henough : b.enough ⟨true, true⟩ = true) :
    (h.turns b quietHostTurns).Sleeps b fun _ => idleStatus := by
  obtain ⟨hlinked', hserver', -⟩ := Host.run_linked hb hstart (by
    rw [quietHostTurns_plain henough]
    exact quietTurns_possible)
  rw [quietHostTurns_plain henough] at hserver'
  have hregistered := hlinked'.registered
  rw [hserver'] at hregistered
  intro fd
  by_contra hready
  obtain ⟨w, hw, hwake⟩ := (hb.ready hlinked'.kernel).mp hready
  rw [hserver', turns_listenerFd] at hw
  rw [quietTurns_interest hregistered hw] at hwake
  cases hwake

end

end C11Omo.Io
