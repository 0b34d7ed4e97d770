import C11Omo.Io.Epoll
import C11Omo.IoUring.Clients
import C11Omo.IoUring.Orderly

set_option autoImplicit false

/-! # The server over io_uring

With io_uring (`src/io_uring.c`) a poll is used up by the event that it reports, and `h2_io_wait`
arms new ones before it sleeps. So the events are not what a turn is given, as over epoll, but what
the wait before it has returned. The server handles each event of a wait once, and asks for other
events and removes descriptors only while it handles their own event: it uses the backend in an
orderly way (`Serving`). So while events are handled no removal has a poll to cancel or waits for the
kernel, and all that can go wrong with cancellations, saved completions and late requests does not
happen (`uring_polls_exact`). The removals at the end of `h2_server_run`, after the last wait, are
not among the turns: they do find polls that are armed. A server that sleeps has nothing to do
(`uring_sleeping_done`).
-/

namespace C11Omo.Io

open C11Omo.Http2 C11Omo.Lib
open C11Omo.IoUring (Uring Entered Post Sqe FdState fdSlot fdSlot_eq_some uringMaxFds uringEntries
  pollIn pollOut pollErr pollHup pollRdHup)

/-! ## The server -/

/-- An `accept` after which the loop goes on, with what the kernel would answer to the removal of the
descriptor. -/
inductive UringAccept
  | interrupted
  | accepted (fd : Int) (nonblock : Bool) (answer : Entered) (rounds : List Uring.Round)

/-- What the kernel does while an event is handled: it completes polls, and the system calls have
these outcomes. -/
structure UringOutcome where
  posted : List Post
  accepts : List UringAccept
  last : AcceptEnd
  reads : Reads
  writes : Writes
  answer : Entered
  rounds : List Uring.Round

namespace UringHost

/-- `h2_close_client`, if it returns. -/
def closeClient (h : Host Uring) (pos : Fin serverMaxClients) (answer : Entered)
    (rounds : List Uring.Round) : Option (Host Uring) :=
  (IoUring.Host.closeClient { server := h.server, uring := h.kernel } pos answer rounds).map
    fun closed => {
      server := closed.server
      kernel := closed.uring
      ended := Function.update h.ended pos false }

/-- What the loop of `h2_accept_clients` does with a new file descriptor, if it goes on. -/
def acceptClient (h : Host Uring) (fd : Int) (nonblock : Bool) (answer : Entered)
    (rounds : List Uring.Round) : Option (Host Uring) :=
  (IoUring.Host.acceptClient { server := h.server, uring := h.kernel } fd nonblock answer rounds).map
    fun accepted => { h with server := accepted.server, kernel := accepted.uring }

/-- `h2_accept_clients`. -/
def acceptClients (h : Host Uring) : List UringAccept → AcceptEnd → Option (Int × Host Uring)
  | [], .again => some (0, h)
  | [], .failed => some (-1, h)
  | .interrupted :: rest, last => acceptClients h rest last
  | .accepted fd nonblock answer rounds :: rest, last =>
      match acceptClient h fd nonblock answer rounds with
      | none => none
      | some h => acceptClients h rest last

/-- One iteration of the loop over the events in `h2_server_run`, if it returns. -/
def turn (h : Host Uring) (event : IoEvent) (o : UringOutcome) : Option (Host Uring) :=
  let h := { h with kernel := h.kernel.posts o.posted }
  if event.fd = h.server.listenerFd then
    if event.readable then
      match acceptClients h o.accepts o.last with
      | none => none
      | some (ret, h) =>
          some (if ret ≠ 0 then { h with server := { h.server with exitCode := -1 } } else h)
    else some h
  else
    match h.server.findClient event.fd with
    | none => some h
    | some pos =>
        let handling := handleClient (h.server.clients pos) event o.reads o.writes
        let h := { h with
          server := h.server.setClient pos handling.client
          ended := Function.update h.ended pos (decide (handling.interest = none)) }
        if handling.closes then closeClient h pos o.answer o.rounds
        else
          match handling.interest with
          | some wantWrite =>
              let (_, kernel) := h.kernel.modConnection handling.client.fd wantWrite
              some { h with server := h.server.register handling.client.fd wantWrite, kernel }
          | none => some h

/-- The loop over the events that one `h2_io_wait` has returned, the outcomes by their position. -/
def turns (h : Host Uring) : List IoEvent → (Nat → UringOutcome) → Option (Host Uring)
  | [], _ => some h
  | event :: events, outcomes =>
      match turn h event (outcomes 0) with
      | none => none
      | some h => turns h events fun n => outcomes (n + 1)

end UringHost

/-! ## What the server sees -/

/-- A descriptor is registered if it is in range. -/
def UringAccept.plain : UringAccept → AcceptOutcome
  | .interrupted => .interrupted
  | .accepted fd nonblock _ _ => .accepted fd nonblock (fdSlot fd).isSome

def UringOutcome.plain (o : UringOutcome) (event : IoEvent) : Turn where
  event := event
  accepts := { outcomes := o.accepts.map UringAccept.plain, last := o.last }
  reads := o.reads
  writes := o.writes

def plainTurns : List IoEvent → (Nat → UringOutcome) → List Turn
  | [], _ => []
  | event :: events, outcomes =>
      (outcomes 0).plain event :: plainTurns events fun n => outcomes (n + 1)

/-- The states in which `h2_server_run` comes to `h2_io_wait`, and the turns so far. The kernel takes
what it is asked to take, or fails and takes nothing. -/
inductive UringRun (listenerFd : Int) : List Turn → Host Uring → Prop
  | start {uring : Uring} (hadd : Uring.init.addListener listenerFd = (0, uring)) :
      UringRun listenerFd []
        { server := Server.start listenerFd, kernel := uring, ended := fun _ => false }
  | wait {ts : List Turn} {h h' : Host Uring} {uring : Uring} {events : List IoEvent}
      {extArg : Bool} {w : Uring.Waiting} {outcomes : Nat → UringOutcome}
      (hrun : UringRun listenerFd ts h)
      (hwhole : h.kernel.TakesWhole (.wait 64 (-1) extArg w))
      (hwait : h.kernel.wait 64 (-1) extArg w = (some events, uring))
      (hturns : UringHost.turns { h with kernel := uring } events outcomes = some h') :
      UringRun listenerFd (ts ++ plainTurns events outcomes) h'

/-! ## The table of descriptors -/

/-- The events that the server asks for. -/
def uringEvents (listenerFd fd : Int) (wantWrite : Bool) : Nat :=
  if fd = listenerFd then pollIn ||| pollErr ||| pollHup
  else
    let events := pollIn ||| pollRdHup ||| pollErr ||| pollHup
    if wantWrite then events ||| pollOut else events

/-- The table as an interest list. -/
def interestOf (u : Uring) (fd : Int) : Option Nat :=
  match fdSlot fd with
  | none => none
  | some i => if (u.fds i).used then some (u.fds i).events else none

/-- The table holds the listener and what is in `io`. -/
def UringHolds (listenerFd : Int) (io : Int → Option Bool) (u : Uring) : Prop :=
  interestOf u = fun fd =>
    (Function.update io listenerFd (some false) fd).map (uringEvents listenerFd fd)

section

variable {l fd : Int} {io : Int → Option Bool} {u v : Uring} {i : Fin uringMaxFds}

theorem interestOf_slot (u : Uring) (hslot : fdSlot fd = some i) :
    interestOf u fd = if (u.fds i).used then some (u.fds i).events else none := by
  unfold interestOf
  rw [hslot]

theorem interestOf_eq_some {events : Nat} : interestOf u fd = some events
    ↔ ∃ i : Fin uringMaxFds, fd = i ∧ (u.fds i).used = true ∧ (u.fds i).events = events := by
  constructor
  · intro h
    rcases hslot : fdSlot fd with _ | i
    · unfold interestOf at h
      rw [hslot] at h
      cases h
    · rw [interestOf_slot u hslot, Option.ite_none_right_eq_some] at h
      exact ⟨i, fdSlot_eq_some.mp hslot, h.1, Option.some.inj h.2⟩
  · rintro ⟨i, hi, hused, hevents⟩
    rw [interestOf_slot u (fdSlot_eq_some.mpr hi), if_pos hused, hevents]

theorem interestOf_none (h : interestOf u i = none) : (u.fds i).used = false := by
  by_contra hused
  have hsome := interestOf_eq_some.mpr ⟨i, rfl, by simpa using hused, rfl⟩
  rw [h] at hsome
  cases hsome

theorem interestOf_setSlot (u : Uring) (i : Fin uringMaxFds) (state : FdState) :
    interestOf (u.setSlot i state)
      = Function.update (interestOf u) i (if state.used then some state.events else none) := by
  funext fd
  by_cases hfd : fd = (i : Int)
  · rw [interestOf_slot _ (fdSlot_eq_some.mpr hfd), IoUring.Uring.setSlot_same, hfd,
      Function.update_self]
  · rw [Function.update_of_ne hfd]
    unfold interestOf
    rcases hslot : fdSlot fd with _ | j
    · rfl
    · have hj : j ≠ i := by
        rintro rfl
        exact hfd (fdSlot_eq_some.mp hslot)
      simp only [IoUring.Uring.setSlot_ne u hj]

theorem interestOf_sameEntries (h : Uring.SameEntries u v) : interestOf v = interestOf u := by
  funext fd
  unfold interestOf
  rcases fdSlot fd with _ | i
  · rfl
  · simp only [(h.entry i).1, (h.entry i).2]

theorem UringHolds.sameEntries (h : UringHolds l io u) (hsame : Uring.SameEntries u v) :
    UringHolds l io v := (interestOf_sameEntries hsame).trans h

theorem UringHolds.interest (h : UringHolds l io u) {w : Bool}
    (hentry : Function.update io l (some false) fd = some w) :
    interestOf u fd = some (uringEvents l fd w) := by
  rw [h]
  exact congrArg (Option.map (uringEvents l fd)) hentry

theorem UringHolds.at (h : UringHolds l io u) (hfd : fd ≠ l) :
    interestOf u fd = (io fd).map (uringEvents l fd) := by
  rw [h]
  show (Function.update io l (some false) fd).map (uringEvents l fd) = _
  rw [Function.update_of_ne hfd]

/-- An entry of the table is set. -/
theorem UringHolds.setSlot (h : UringHolds l io u) (hfd : (i : Int) ≠ l) {interest : Option Bool}
    {state : FdState} (hstate : (if state.used then some state.events else none)
      = interest.map (uringEvents l i)) :
    UringHolds l (Function.update io i interest) (u.setSlot i state) := by
  unfold UringHolds
  rw [interestOf_setSlot, hstate]
  funext fd
  rw [Function.update_comm hfd interest (some false) io]
  by_cases hfd' : fd = (i : Int)
  · subst hfd'
    rw [Function.update_self, Function.update_self]
  · rw [Function.update_of_ne hfd', Function.update_of_ne hfd', h]

theorem registered_entry (state : FdState) (events : Nat) :
    (if (IoUring.Registry.registered state events).used then
      some (IoUring.Registry.registered state events).events else none) = some events := by
  unfold IoUring.Registry.registered
  rcases hused : state.used with _ | _
  · rfl
  · simp only [if_true]

end

/-! ## Serving -/

/-- While the events of a wait are handled: the table holds what the server has asked for, the
backend is used in an orderly way, and the descriptors whose events are still to be handled are in use
and have no poll. -/
structure Serving (h : Host Uring) (fds : List Int) : Prop where
  linked : h.Linked UringHolds
  orderly : h.kernel.Orderly
  nodup : fds.Nodup
  idle : ∀ fd ∈ fds, ∃ i : Fin uringMaxFds, fd = i ∧ (h.kernel.fds i).used = true
    ∧ (h.kernel.fds i).active = false

section

variable {h h₁ : Host Uring} {fds : List Int} {fd : Int} {pos : Fin serverMaxClients}
  {i : Fin uringMaxFds} {events : Nat}

/-- The kernel completes polls. -/
theorem Serving.posts (h' : Serving h fds) (ps : List Post) :
    Serving { h with kernel := h.kernel.posts ps } fds := by
  have hfds := (IoUring.Uring.posts_advances h.kernel ps).fds
  refine ⟨{ h'.linked with kernel := h'.linked.kernel.sameEntries (.of_fds hfds) },
    h'.orderly.posts ps, h'.nodup, fun fd hfd => ?_⟩
  obtain ⟨i, hi, hused, hidle⟩ := h'.idle fd hfd
  simp only [hfds]
  exact ⟨i, hi, hused, hidle⟩

/-- The descriptors to be handled keep their entries when another one changes. -/
theorem Serving.idle_setSlot (h' : Serving h fds) (hother : ∀ fd ∈ fds, fd ≠ i)
    (state : FdState) : ∀ fd ∈ fds, ∃ j : Fin uringMaxFds, fd = j
      ∧ ((h.kernel.setSlot i state).fds j).used = true
      ∧ ((h.kernel.setSlot i state).fds j).active = false := by
  intro fd hfd
  obtain ⟨j, rfl, hused, hidle⟩ := h'.idle fd hfd
  have hj : j ≠ i := by
    rintro rfl
    exact hother _ hfd rfl
  refine ⟨j, rfl, ?_⟩
  rw [IoUring.Uring.setSlot_ne _ hj]
  exact ⟨hused, hidle⟩

/-- A descriptor that is not open has no entry in use. -/
theorem Serving.unused (h' : Serving h fds) (hopen : h.server.Unopened i) :
    (h.kernel.fds i).used = false := by
  have hnone := h'.linked.registered.io_none hopen
  apply interestOf_none
  rw [h'.linked.kernel.at hopen.1, hnone, Option.map_none]

/-- **One descriptor from `accept`.** It is registered if it is in range. -/
theorem Serving.accept (h' : Serving h fds) (hopen : h.server.Unopened fd) (nonblock : Bool)
    (answer : Entered) (rounds : List Uring.Round) :
    ∃ h₁, UringHost.acceptClient h fd nonblock answer rounds = some h₁ ∧ Serving h₁ fds
      ∧ h₁.server = h.server.acceptClient fd nonblock (fdSlot fd).isSome := by
  unfold UringHost.acceptClient IoUring.Host.acceptClient Server.acceptClient
  by_cases hblock : nonblock = false
  · rw [if_pos hblock, if_pos hblock]
    exact ⟨h, rfl, h', rfl⟩
  · rw [if_neg hblock, if_neg hblock]
    rcases halloc : h.server.allocClient fd with _ | ⟨pos, s⟩
    · exact ⟨h, rfl, h', rfl⟩
    · obtain ⟨hfree, rfl⟩ := Server.allocClient_spec halloc
      have hself := Server.setClient_self h.server pos (Host.fresh fd)
      simp only
      rcases hslot : fdSlot fd with _ | i
      · -- out of range, so that there is nothing to remove either
        have hadd : h.kernel.addConnection fd = (-1, h.kernel) := by
          rw [Uring.addConnection, IoUring.Uring.setFd_eq, hslot]
        have hremove : h.kernel.remove fd answer rounds = some (-1, h.kernel) := by
          rw [Uring.remove, hslot]
        have hended : Function.update h.ended pos false = h.ended :=
          Function.update_eq_self_iff.mpr (h'.linked.free pos hfree).symm
        have hundo := h'.linked.undo hopen hfree h'.linked.kernel
        rw [hended] at hundo
        rw [hadd]
        simp only
        rw [if_pos (by decide), IoUring.Host.closeClient, if_pos (by rw [hself])]
        simp only [hself, hremove]
        exact ⟨_, rfl, ⟨hundo, h'.orderly, h'.nodup, h'.idle⟩, rfl⟩
      · have hi : fd = i := fdSlot_eq_some.mp hslot
        subst hi
        have hunused := h'.unused hopen
        -- nothing uses the entry yet, so no poll is out on it
        have hidle : (h.kernel.fds i).active = false := by
          by_contra hactive
          rw [Bool.not_eq_false] at hactive
          have hused : (h.kernel.fds i).used = true := h'.orderly.exact.used i hactive
          rw [hunused] at hused
          cases hused
        have hother : ∀ fd ∈ fds, fd ≠ i := by
          rintro fd hfd rfl
          obtain ⟨j, hj, hused, -⟩ := h'.idle _ hfd
          obtain rfl : i = j := Fin.ext (by exact_mod_cast hj)
          rw [hunused] at hused
          cases hused
        have hadd : h.kernel.addConnection i = (0, h.kernel.setSlot i
            (IoUring.Registry.registered (h.kernel.fds i)
              (pollIn ||| pollRdHup ||| pollErr ||| pollHup))) := by
          rw [Uring.addConnection, IoUring.Uring.setFd_eq, hslot]
        rw [hadd]
        simp only
        rw [if_neg (by decide)]
        refine ⟨_, rfl, ⟨h'.linked.add hopen hfree ?_, h'.orderly.register hidle _, h'.nodup,
          h'.idle_setSlot hother _⟩, rfl⟩
        apply h'.linked.kernel.setSlot hopen.1
        rw [registered_entry, Option.map_some, uringEvents, if_neg hopen.1]
        rfl

theorem Serving.accepts (h' : Serving h fds) {accepts : List UringAccept}
    (hopen : h.server.AcceptsUnopened (accepts.map UringAccept.plain)) (last : AcceptEnd) :
    ∃ ret h₁, UringHost.acceptClients h accepts last = some (ret, h₁) ∧ Serving h₁ fds
      ∧ (ret, h₁.server) = h.server.acceptClients (accepts.map UringAccept.plain) last := by
  induction accepts generalizing h with
  | nil => cases last <;> exact ⟨_, h, rfl, h', rfl⟩
  | cons accept rest ih =>
      cases accept with
      | interrupted => exact ih h' hopen
      | accepted fd nonblock answer rounds =>
          obtain ⟨hunopened, hrest⟩ := hopen
          obtain ⟨h₁, haccept, hserving, hserver⟩ := h'.accept hunopened nonblock answer rounds
          rw [← hserver] at hrest
          rw [UringHost.acceptClients, haccept, List.map_cons, UringAccept.plain,
            Server.acceptClients, ← hserver]
          exact ih hserving hrest

/-- A removal without a poll to cancel returns at once. -/
theorem remove_idle {u : Uring} (hused : (u.fds i).used = true) (hidle : (u.fds i).active = false)
    (answer : Entered) (rounds : List Uring.Round) :
    u.remove i answer rounds = some (0, u.clear i) := by
  rw [Uring.remove, IoUring.fdSlot_slot]
  simp only [hused, Uring.cancelActivePoll, hidle]
  rfl

theorem Serving.tail (h' : Serving h (fd :: fds)) : Serving h fds where
  linked := h'.linked
  orderly := h'.orderly
  nodup := (List.nodup_cons.mp h'.nodup).2
  idle fd hfd := h'.idle fd (List.mem_cons_of_mem _ hfd)

/-- **A client is closed** whose event is handled. -/
theorem Serving.close {ended : Fin serverMaxClients → Bool} {server : Server}
    (hlinked : Host.Linked UringHolds { server, kernel := h.kernel, ended })
    (h' : Serving h (fd :: fds)) (hused : (server.clients pos).used = true)
    (hfd : (server.clients pos).fd = fd) (answer : Entered) (rounds : List Uring.Round) :
    ∃ h₁, UringHost.closeClient { server, kernel := h.kernel, ended } pos answer rounds = some h₁
      ∧ Serving h₁ fds ∧ h₁.server = server.closeClient pos := by
  obtain ⟨i, rfl, hentry, hidle⟩ := h'.idle fd List.mem_cons_self
  obtain ⟨hnot, hnodup⟩ := List.nodup_cons.mp h'.nodup
  have hclear : (Uring.clear h.kernel i)
      = h.kernel.setSlot i { h.kernel.fds i with active := false, used := false, events := 0 } := rfl
  have hother : ∀ fd ∈ fds, fd ≠ i := by
    rintro fd hmem rfl
    exact hnot hmem
  unfold UringHost.closeClient IoUring.Host.closeClient
  rw [if_pos hused]
  simp only [hfd, remove_idle hentry hidle answer rounds]
  refine ⟨_, rfl, ⟨hlinked.closed hused ?_, h'.orderly.clear hidle, hnodup, ?_⟩, rfl⟩
  · have hne := hlinked.registered.listener pos hused
    rw [hfd] at hne ⊢
    rw [hclear]
    exact hlinked.kernel.setSlot hne rfl
  · rw [hclear]
    exact h'.tail.idle_setSlot hother _

/-- **A client asks for events** while its event is handled. -/
theorem Serving.modify {ended : Fin serverMaxClients → Bool} {server : Server} {w : Bool}
    (h' : Serving h (fd :: fds)) (hne : fd ≠ h.server.listenerFd)
    (hlinked : ∀ kernel, UringHolds h.server.listenerFd
        (Function.update h.server.io fd (some w)) kernel →
      Host.Linked UringHolds { server, kernel, ended }) :
    Serving { server, kernel := (h.kernel.modConnection fd w).2, ended } fds := by
  obtain ⟨i, rfl, hentry, hidle⟩ := h'.idle fd List.mem_cons_self
  obtain ⟨hnot, hnodup⟩ := List.nodup_cons.mp h'.nodup
  have hother : ∀ fd ∈ fds, fd ≠ i := by
    rintro fd hmem rfl
    exact hnot hmem
  have hmod : (h.kernel.modConnection i w).2 = h.kernel.setSlot i
      (IoUring.Registry.registered (h.kernel.fds i) (uringEvents h.server.listenerFd i w)) := by
    rw [Uring.modConnection, IoUring.Uring.setFd_eq, IoUring.fdSlot_slot, uringEvents, if_neg hne]
  rw [hmod]
  refine ⟨hlinked _ ?_, h'.orderly.register hidle _, hnodup, h'.tail.idle_setSlot hother _⟩
  apply h'.linked.kernel.setSlot hne
  rw [registered_entry, Option.map_some]

/-- **One turn** returns, and is one turn of the server. -/
theorem Serving.turn {event : IoEvent} {o : UringOutcome} (h' : Serving h (event.fd :: fds))
    (hopen : h.server.AcceptsUnopened (o.plain event).accepts.outcomes) :
    ∃ h₁, UringHost.turn h event o = some h₁ ∧ Serving h₁ fds
      ∧ h₁.server = h.server.turn (o.plain event) := by
  have hposted := h'.posts o.posted
  unfold UringHost.turn Server.turn
  generalize h.kernel.posts o.posted = kernel at hposted ⊢
  -- the listener, a client, or a descriptor that has gone
  by_cases hfd : event.fd = h.server.listenerFd
  · rw [if_pos hfd, if_pos (show (o.plain event).event.fd = h.server.listenerFd from hfd)]
    by_cases hreadable : event.readable = true
    · rw [if_pos hreadable, if_pos (show (o.plain event).event.readable = true from hreadable)]
      obtain ⟨ret, h₁, haccepts, hserving, hserver⟩ := hposted.tail.accepts hopen o.last
      change (ret, h₁.server) = h.server.acceptClients (o.plain event).accepts.outcomes
        (o.plain event).accepts.last at hserver
      rw [haccepts, ← hserver]
      simp only
      by_cases hbad : ret ≠ 0
      · rw [if_pos hbad, if_pos hbad]
        refine ⟨_, rfl, ⟨⟨?_, hserving.linked.kernel, hserving.linked.armed, hserving.linked.free⟩,
          hserving.orderly, hserving.nodup, hserving.idle⟩, rfl⟩
        exact hserving.linked.registered.congr rfl (fun _ => Iff.rfl) (fun _ => rfl) fun _ _ => rfl
      · rw [if_neg hbad, if_neg hbad]
        exact ⟨_, rfl, hserving, rfl⟩
    · rw [if_neg hreadable, if_neg (show ¬ (o.plain event).event.readable = true from hreadable)]
      exact ⟨_, rfl, hposted.tail, rfl⟩
  · rw [if_neg hfd, if_neg (show ¬ (o.plain event).event.fd = h.server.listenerFd from hfd)]
    rcases hfind : h.server.findClient event.fd with _ | pos
    · rw [show h.server.findClient (o.plain event).event.fd = none from hfind]
      exact ⟨_, rfl, hposted.tail, rfl⟩
    · rw [show h.server.findClient (o.plain event).event.fd = some pos from hfind]
      obtain ⟨hused, hclient⟩ := Server.findClient_eq_some hfind
      obtain ⟨-, -, -, -, hfd', hused'⟩ :=
        handleClient_spec (h.server.clients pos) event o.reads o.writes
      have hclosing := handleClient_interest (h.server.clients pos) event o.reads o.writes
      have hhandling : h.server.handling (o.plain event) pos
        = handleClient (h.server.clients pos) event o.reads o.writes := rfl
      have hlinked := hposted.linked
      simp only
      rw [hhandling]
      generalize handleClient (h.server.clients pos) event o.reads o.writes = handling
        at hfd' hused' hclosing ⊢
      obtain ⟨w₀, hw₀⟩ := (hlinked.registered.some_iff _).mpr ⟨pos, hused, rfl⟩
      rw [← hfd'] at hw₀
      have hself := Server.setClient_self h.server pos handling.client
      rcases hinterest : handling.interest with _ | w
      · -- the entry stays as it was
        have hset := @Host.Linked.handle _ _ _ _ hlinked hused _ hfd' (hused'.trans hused) true _ _
          hlinked.kernel ⟨w₀, hw₀⟩ (fun _ _ => rfl) (by simp)
        by_cases hcloses : handling.closes = true
        · rw [if_pos hcloses, if_pos hcloses]
          refine @Serving.close { h with kernel } _ _ _ _ _ hset hposted ?_ ?_ o.answer o.rounds
          · show ((h.server.setClient pos handling.client).clients pos).used = true
            rw [hself]
            exact hused'.trans hused
          · show ((h.server.setClient pos handling.client).clients pos).fd = event.fd
            rw [hself]
            exact hfd'.trans hclient
        · rw [if_neg hcloses, if_neg hcloses]
          exact ⟨_, rfl, ⟨hset, hposted.orderly, hposted.tail.nodup, hposted.tail.idle⟩, rfl⟩
      · obtain ⟨hcloses, hw⟩ := hclosing w hinterest
        rw [if_neg (by simp [hcloses]), if_neg (by simp [hcloses])]
        have hfd'' : handling.client.fd = event.fd := hfd'.trans hclient
        simp only [hfd''] at hw₀ ⊢
        refine ⟨_, rfl, hposted.modify hfd fun kernel' hholds => ?_, rfl⟩
        refine @Host.Linked.handle _ _ _ _ hlinked hused _ hfd' (hused'.trans hused) false _ _ hholds
          ⟨w, ?_⟩ (fun fd hne => ?_) fun _ => ?_
        · rw [hfd'', Function.update_self]
        · rw [hfd''] at hne
          exact Function.update_of_ne hne ..
        · rw [hfd'', Function.update_self, hw]

theorem Serving.turns {events : List IoEvent} {outcomes : Nat → UringOutcome}
    (h' : Serving h (events.map IoEvent.fd))
    (hposs : h.server.Possible (plainTurns events outcomes)) :
    ∃ h₁, UringHost.turns h events outcomes = some h₁ ∧ Serving h₁ []
      ∧ h₁.server = h.server.turns (plainTurns events outcomes) := by
  induction events generalizing h outcomes with
  | nil => exact ⟨h, rfl, h', rfl⟩
  | cons event events ih =>
      obtain ⟨hopen, hrest⟩ := hposs
      obtain ⟨h₁, hturn, hserving, hserver⟩ := h'.turn hopen
      rw [← hserver] at hrest
      obtain ⟨h₂, hturns, hserving', hserver'⟩ := ih hserving hrest
      refine ⟨h₂, ?_, hserving', hserver'.trans ?_⟩
      · rw [UringHost.turns, hturn]
        exact hturns
      · rw [hserver]
        rfl

/-- **`h2_io_wait`**, after which the events are handled. -/
theorem Serving.wait (h' : Serving h []) {extArg : Bool} {w : Uring.Waiting}
    (hwhole : h.kernel.TakesWhole (.wait 64 (-1) extArg w)) {events : List IoEvent} {uring : Uring}
    (hwait : h.kernel.wait 64 (-1) extArg w = (some events, uring)) :
    Serving { h with kernel := uring } (events.map IoEvent.fd) := by
  obtain ⟨horderly, hsame, hnodup, hevents⟩ :=
    h'.orderly.wait (by decide) (by decide) hwhole hwait
  refine ⟨{ h'.linked with kernel := h'.linked.kernel.sameEntries hsame }, horderly, hnodup,
    fun fd hfd => ?_⟩
  obtain ⟨event, hevent, rfl⟩ := List.mem_map.mp hfd
  exact hevents event hevent

end

section

variable {h : Host Uring} {listenerFd : Int} {ts ts' : List Turn}

theorem possible_append (s : Server) :
    s.Possible (ts ++ ts') ↔ s.Possible ts ∧ (s.turns ts).Possible ts' := by
  induction ts generalizing s with
  | nil => exact (and_iff_right trivial).symm
  | cons t ts ih =>
      show _ ∧ (s.turn t).Possible (ts ++ ts') ↔ (_ ∧ (s.turn t).Possible ts) ∧ _
      rw [ih, and_assoc]
      rfl

/-- The listener is registered first. -/
theorem start_serving {uring : Uring} (hadd : Uring.init.addListener listenerFd = (0, uring)) :
    Serving { server := Server.start listenerFd, kernel := uring, ended := fun _ => false } [] := by
  rw [Uring.addListener, IoUring.Uring.setFd_eq] at hadd
  rcases hslot : fdSlot listenerFd with _ | i
  · rw [hslot] at hadd
    exact absurd (congrArg Prod.fst hadd) (show (-1 : Int) ≠ 0 by decide)
  · rw [hslot] at hadd
    obtain rfl := congrArg Prod.snd hadd
    have hi : listenerFd = i := fdSlot_eq_some.mp hslot
    refine ⟨⟨start_registered listenerFd, ?_, fun _ hused => (by cases hused), fun _ _ => rfl⟩,
      Uring.Orderly.init.register rfl _, List.nodup_nil, fun _ hfd => (by cases hfd)⟩
    show UringHolds listenerFd (fun _ => none) _
    unfold UringHolds
    rw [interestOf_setSlot, registered_entry]
    funext fd
    by_cases hfd : fd = listenerFd
    · rw [hfd, ← hi, Function.update_self, Function.update_self, Option.map_some, uringEvents,
        if_pos rfl]
    · rw [Function.update_of_ne hfd, ← hi, Function.update_of_ne hfd]
      rcases hnone : interestOf Uring.init fd with _ | events
      · rfl
      · obtain ⟨j, -, hused, -⟩ := interestOf_eq_some.mp hnone
        cases hused

/-- **Every run** is one of the server, and uses the backend in an orderly way. -/
theorem UringRun.serving (hrun : UringRun listenerFd ts h)
    (hposs : (Server.start listenerFd).Possible ts) :
    Serving h [] ∧ h.server = (Server.start listenerFd).turns ts := by
  induction hrun with
  | start hadd => exact ⟨start_serving hadd, rfl⟩
  | @wait ts h h' uring events extArg w outcomes hrun hwhole hwait hturns ih =>
      obtain ⟨hbefore, hafter⟩ := (possible_append _).mp hposs
      obtain ⟨hserving, hserver⟩ := ih hbefore
      rw [← hserver] at hafter
      obtain ⟨h₁, hturns', hserving', hserver'⟩ := (hserving.wait hwhole hwait).turns hafter
      rw [hturns] at hturns'
      obtain rfl := Option.some.inj hturns'
      refine ⟨hserving', hserver'.trans ?_⟩
      rw [hserver, Server.turns, Server.turns, Server.turns, List.foldl_append]

end

/-! ## Sleep -/

/-- What the kernel polls a descriptor for. -/
def polledFor (u : Uring) (fd : Int) : List Nat :=
  (u.inFlight.filter fun sqe => sqe.fd = fd).map Sqe.pollEvents

section

variable {h : Host Uring} {listenerFd fd : Int} {ts : List Turn} {fds : List Int} {extArg : Bool}
  {w : Uring.Waiting} {n : Nat}

theorem uringEvents_lt (listenerFd fd : Int) (wantWrite : Bool) :
    uringEvents listenerFd fd wantWrite < 65536 := by
  unfold uringEvents
  split_ifs <;> decide

/-- The entries in use are those of the listener and of the clients. -/
theorem Serving.usedCount_le (h' : Serving h fds) : h.kernel.usedCount ≤ uringEntries := by
  obtain ⟨owner, howner⟩ : ∃ owner : Fin uringMaxFds → Option (Fin serverMaxClients),
      ∀ i, owner i = h.server.findClient i := ⟨_, fun _ => rfl⟩
  have hlistener : ∀ i : Fin uringMaxFds, (h.kernel.fds i).used = true → owner i = none →
      (i : Int) = h.server.listenerFd := by
    intro i hused hnone
    by_contra hne
    have hsome := (h'.linked.kernel.at hne).symm.trans
      (interestOf_eq_some.mpr ⟨i, rfl, hused, rfl⟩)
    obtain ⟨wantWrite, hio, -⟩ := Option.map_eq_some_iff.mp hsome
    obtain ⟨pos, hpos, hfd⟩ := (h'.linked.registered.some_iff i).mp ⟨wantWrite, hio⟩
    have hfind := Server.findClient_used h'.linked.registered.distinct hpos
    rw [howner, ← hfd, hfind] at hnone
    cases hnone
  -- an entry in use has one owner: a client, or the listener if it has none
  have hinj : ∀ i ∈ (List.finRange uringMaxFds).filter fun i => (h.kernel.fds i).used,
      ∀ j ∈ (List.finRange uringMaxFds).filter fun i => (h.kernel.fds i).used,
      owner i = owner j → i = j := by
    intro i hi j hj heq
    have hi' := (List.mem_filter.mp hi).2
    have hj' := (List.mem_filter.mp hj).2
    rcases hown : owner i with _ | pos
    · have hli := hlistener i hi' hown
      have hlj := hlistener j hj' (heq.symm.trans hown)
      exact Fin.ext (by exact_mod_cast hli.trans hlj.symm)
    · rw [hown, howner] at heq
      rw [howner] at hown
      obtain ⟨-, hfd⟩ := Server.findClient_eq_some hown
      obtain ⟨-, hfd'⟩ := Server.findClient_eq_some heq.symm
      exact Fin.ext (by exact_mod_cast hfd.symm.trans hfd')
  have hnodup := ((List.nodup_finRange uringMaxFds).filter _).map_on hinj
  have hcard := hnodup.length_le_card
  rw [List.length_map, ← List.countP_eq_length_filter] at hcard
  rw [Uring.usedCount]
  refine hcard.trans ?_
  rw [Fintype.card_option, Fintype.card_fin]
  decide

/-- **When the server sleeps**, the kernel has one poll for each entry of the table, with its
events. -/
theorem Serving.polledFor (h' : Serving h fds)
    (hwhole : h.kernel.TakesWhole (.wait 64 (-1) extArg w)) (hblocks : h.kernel.Blocks 64 (-1) w)
    (hok : (h.kernel.submitMissing w.submit).1 = .ok n) (fd : Int) :
    polledFor (h.kernel.asleep w) fd = (interestOf h.kernel fd).toList := by
  obtain ⟨hpolls, hnodup⟩ := h'.orderly.asleep hwhole hblocks hok h'.usedCount_le
  rw [Io.polledFor]
  rcases hinterest : interestOf h.kernel fd with _ | events
  · rw [Option.toList_none, List.map_eq_nil_iff, List.filter_eq_nil_iff]
    intro sqe hsqe
    obtain ⟨i, hused, rfl⟩ := (hpolls sqe).mp hsqe
    rw [decide_eq_true_iff]
    intro hfd
    rw [interestOf_eq_some.mpr ⟨i, hfd.symm, hused, rfl⟩] at hinterest
    cases hinterest
  · obtain ⟨i, hi, hused, hevents⟩ := interestOf_eq_some.mp hinterest
    -- a poll is for the descriptor of its entry, and each entry has one
    have hone : ((h.kernel.asleep w).inFlight.filter fun sqe => sqe.fd = fd)
        = [h.kernel.pollSqe i] := by
      apply List.perm_singleton.mp
      rw [List.perm_ext_iff_of_nodup (hnodup.filter _) (List.nodup_singleton _)]
      intro sqe
      rw [List.mem_filter, hpolls, List.mem_singleton, decide_eq_true_iff]
      constructor
      · rintro ⟨⟨j, -, rfl⟩, hfd⟩
        have hj : (j : Int) = i := hfd.trans hi
        obtain rfl : j = i := Fin.ext (by exact_mod_cast hj)
        rfl
      · rintro rfl
        exact ⟨⟨i, hused, rfl⟩, hi.symm⟩
    have hlt : events < 65536 := by
      have hentry := hinterest
      rw [h'.linked.kernel] at hentry
      obtain ⟨wantWrite, -, rfl⟩ := Option.map_eq_some_iff.mp hentry
      exact uringEvents_lt _ _ _
    rw [hone, List.map_singleton, Option.toList_some]
    show [(h.kernel.fds i).events % 65536] = [events]
    rw [hevents, Nat.mod_eq_of_lt hlt]

end

/-! ## A client connects -/

/-- What the kernel does if it takes all there is to submit. -/
def takingAll (u : Uring) (posted : List Post) : Uring.Waiting :=
  { submit := { consumed := u.missing, result := .ok u.missing }
    posted
    wait := { consumed := 0, result := .ok 0 }
    later := [] }

theorem takingAll_whole (u : Uring) (posted : List Post) :
    u.TakesWhole (.wait 64 (-1) true (takingAll u posted)) := by
  have hnone : ∀ armed : Uring, armed.timeoutSubmissions (-1) true (takingAll u posted) = [] :=
    fun armed => if_neg fun h => absurd h.2.1 (by decide)
  intro s hs
  rw [IoUring.Uring.submissions, if_neg (by decide)] at hs
  have hs' : s ∈ if u.missing = 0 then ([] : List IoUring.Submission)
      else [{ toSubmit := u.missing, answer := (takingAll u posted).submit }] := by
    rcases hsubmit : u.submitMissing (takingAll u posted).submit with ⟨err | n, armed⟩
    · rwa [hsubmit, List.append_nil] at hs
    · rw [hsubmit] at hs
      simp only [hnone armed, List.append_nil] at hs
      exact hs
  split_ifs at hs' with hzero
  · cases hs'
  · rw [List.mem_singleton.mp hs']
    rfl

theorem takingAll_ok (u : Uring) (posted : List Post) :
    ∃ n, (u.submitMissing (takingAll u posted).submit).1 = .ok n := by
  obtain ⟨new, -, -, hnone, hsome⟩ :=
    IoUring.Uring.submitMissing_queue u (takingAll u posted).submit
  by_cases hzero : u.missing = 0
  · exact ⟨0, (hnone hzero).1⟩
  · exact ⟨u.missing, (hsome hzero).1⟩

/-- With no completion the server sleeps. -/
theorem blocks_of {u : Uring} (hcq : u.cq = []) {w : Uring.Waiting} (hposted : w.posted = []) :
    u.Blocks 64 (-1) w := by
  refine ⟨by decide, by decide, ?_⟩
  rw [IoUring.Uring.asleep, hposted, Uring.posts, List.foldl_nil,
    (IoUring.Uring.submitMissing_frame u w.submit).2.2.1, hcq]

/-- One completion of a poll is delivered. -/
theorem deliver_one {u : Uring} {cqe : IoUring.Cqe} {event : IoEvent} (hpend : u.pendingCqes = [])
    (hcq : u.cq = [cqe]) (hreport : u.report cqe = some event) :
    u.deliver 64 [] = ([event], { u.settle cqe with cq := [] }) := by
  have hsaved : u.finishSavedCqes [] 64 = ([], u) := by
    rw [Uring.finishSavedCqes, hpend, Uring.finishSavedLoop, ← hpend]
  have hring := @IoUring.Uring.finishRing_eq [] 64 u [cqe] (Nat.zero_le _)
  have hworked : workOff u.report 64 [cqe] = ([cqe], []) := by
    simp [workOff, hreport]
  rw [List.length_nil, Nat.sub_zero, hworked, List.filterMap_cons_some hreport] at hring
  rw [Uring.deliver, hsaved]
  simp only [Uring.posts, List.foldl_nil, hcq]
  exact hring

/-- Nothing is queued, in flight or completed, and the descriptors in `is` need polls. -/
structure Rests (u : Uring) (is : List (Fin uringMaxFds)) : Prop where
  sq : u.sq = []
  inFlight : u.inFlight = []
  cq : u.cq = []
  pendingCqes : u.pendingCqes = []
  sorted : is.Pairwise (· < ·)
  needs : ∀ i, i ∈ is ↔ u.NeedsPoll i
  few : is.length ≤ uringEntries

/-- **The polls are armed, and one of them completes.** -/
theorem Rests.wait {u : Uring} {is : List (Fin uringMaxFds)} (h : Rests u is) {k : Nat}
    {i : Fin uringMaxFds} (hk : is[k]? = some i) (hgen : (u.fds i).generation < 2 ^ 30) (res : Int) :
    ∃ v, u.wait 64 (-1) true (takingAll u [{ pos := k, res, flags := 0 }])
        = (some [IoUring.Uring.pollEvent i res], v)
      ∧ v.sq = [] ∧ v.cq = [] ∧ v.pendingCqes = [] ∧ v.inFlight = (is.map u.pollSqe).eraseIdx k
      ∧ ∀ j, v.fds j = if j ∈ is ∧ j ≠ i then { u.fds j with active := true } else u.fds j := by
  have hi : i ∈ is := List.mem_of_getElem? hk
  obtain ⟨hused, hidle⟩ := (h.needs i).mp hi
  have hroom : u.sq.length + is.length ≤ uringEntries := by
    rw [h.sq]
    simpa using h.few
  obtain ⟨armed, harmed⟩ : ∃ armed : Uring, armed = { u with
      sq := []
      inFlight := is.map u.pollSqe
      fds := fun j => if j ∈ is then { u.fds j with active := true } else u.fds j
      entered := u.entered ++ [{ toSubmit := is.length, minComplete := 0 }] } := ⟨_, rfl⟩
  have hsubmit : ∀ posted, u.submitMissing (takingAll u posted).submit = (.ok is.length, armed) := by
    intro posted
    have hmissing := IoUring.Uring.missing_needed h.sorted h.needs hroom
    rw [IoUring.Uring.submitMissing_needed h.sorted h.needs hroom (List.ne_nil_of_mem hi),
      IoUring.Uring.foldl_arm, takingAll, hmissing, Uring.enter, harmed]
    simp [h.sq, h.inFlight]
  obtain ⟨cqe, hcqe⟩ : ∃ cqe : IoUring.Cqe, cqe =
      ⟨(u.pollSqe i).userData, res, 0, (u.pollSqe i).registration⟩ := ⟨_, rfl⟩
  obtain ⟨posted, hp⟩ : ∃ posted, posted = armed.posts [{ pos := k, res, flags := 0 }] := ⟨_, rfl⟩
  have hposted : posted = { armed with
      inFlight := (is.map u.pollSqe).eraseIdx k
      cq := [cqe]
      posted := u.posted ++ [cqe] } := by
    rw [hp, Uring.posts, List.foldl_cons, List.foldl_nil, Uring.post, harmed, hcqe]
    simp only [List.getElem?_map, hk, Option.map_some, h.cq, List.nil_append]
  -- the completion is the one of the poll that has just been armed for `i`
  have hslot : posted.fds i = { u.fds i with active := true } := by
    rw [hposted, harmed]
    exact if_pos hi
  have hcurrent : posted.current cqe = some i := by
    rw [hcqe]
    refine IoUring.Uring.current_eq_some.mpr ⟨IoUring.isTimeoutUserData_poll _ _,
      IoUring.userDataFd_poll (IoUring.slot_range i) _, ?_⟩
    rw [hslot]
    exact (IoUring.userDataGeneration_poll _ _).trans (Nat.mod_eq_of_lt hgen)
  have hreport : posted.report cqe = some (IoUring.Uring.pollEvent i res) := by
    refine IoUring.Uring.report_eq_some.mpr ⟨i, hcurrent, ?_, ?_, by rw [hcqe]⟩
    · rw [hcqe]
      exact IoUring.isCancelUserData_poll _ _
    · rw [hslot]
      exact hused
  have hcq : posted.cq = [cqe] := by
    rw [hposted]
  have hpend : posted.pendingCqes = [] := by
    rw [hposted, harmed]
    exact h.pendingCqes
  have hwaits : armed.waits (-1) true (takingAll u [{ pos := k, res, flags := 0 }])
      = (.ok 0, posted) := by
    have hp' : armed.posts (takingAll u [{ pos := k, res, flags := 0 }]).posted = posted := hp.symm
    rw [Uring.waits, hp', hcq, if_neg (List.cons_ne_nil _ _)]
  -- reporting it clears `active` in its entry, and nowhere else
  refine ⟨{ posted.settle cqe with cq := [] }, ?_, ?_, rfl, ?_, ?_, fun j => ?_⟩
  · rw [IoUring.Uring.wait_delivers (show 64 ≠ 0 by decide) (hsubmit _) hwaits]
    rw [show (takingAll u [{ pos := k, res, flags := 0 }]).later = [] from rfl,
      deliver_one hpend hcq hreport]
  all_goals rw [Uring.settle, hcurrent]
  · show posted.sq = []
    rw [hposted, harmed]
  · exact hpend
  · show posted.inFlight = _
    rw [hposted]
  · show Function.update posted.fds i { posted.fds i with active := false } j = _
    by_cases hj : j = i
    · rw [hj, Function.update_self, hslot, if_neg (fun hne => hne.2 rfl), ← hidle]
    · rw [Function.update_of_ne hj, hposted, harmed]
      simp only [hj, ne_eq, not_false_eq_true, and_true]

/-- The listener has been registered, and there is no client. -/
def listening : Uring := (Uring.init.addListener 3).2

theorem listening_slot {j : Fin uringMaxFds} (hj : j ≠ 3) : listening.fds j = Uring.init.fds j :=
  Function.update_of_ne hj _ _

theorem listening_rests : Rests listening [3] where
  sq := rfl
  inFlight := rfl
  cq := rfl
  pendingCqes := rfl
  sorted := List.pairwise_singleton _ _
  needs := IoUring.Uring.needsPoll_one rfl rfl fun j hj hused => by
    rw [listening_slot hj] at hused
    cases hused
  few := by decide

/-- The poll of the listener completes. -/
def connecting : Uring.Waiting := takingAll listening [{ pos := 0, res := 1, flags := 0 }]

theorem listening_wait : ∃ uring,
    listening.wait 64 (-1) true connecting = (some [connectTurn.event], uring)
      ∧ uring.sq = [] ∧ uring.cq = [] ∧ uring.pendingCqes = [] ∧ uring.inFlight = []
      ∧ uring.fds = listening.fds := by
  obtain ⟨uring, hwait, hsq, hcq, hpend, hflight, hfds⟩ :=
    listening_rests.wait (k := 0) rfl (by decide) 1
  refine ⟨uring, hwait, hsq, hcq, hpend, hflight, funext fun j => ?_⟩
  rw [hfds, if_neg]
  rintro ⟨hj, hne⟩
  exact hne (List.mem_singleton.mp hj)

/-- `accept` returns the client, and then there is no other. -/
def connectOutcome : UringOutcome where
  posted := []
  accepts := [.accepted 7 true { consumed := 0, result := .ok 0 } []]
  last := .again
  reads := connectTurn.reads
  writes := connectTurn.writes
  answer := { consumed := 0, result := .ok 0 }
  rounds := []

theorem connectOutcome_plain :
    plainTurns [connectTurn.event] (fun _ => connectOutcome) = [connectTurn] := rfl

theorem connectOutcome_possible :
    (Server.start 3).Possible (plainTurns [connectTurn.event] fun _ => connectOutcome) :=
  ⟨⟨⟨by decide, fun _ hused => by cases hused⟩, trivial⟩, trivial⟩

/-- The run in which one client has connected: the listener and the client need polls. -/
theorem connected_run : ∃ h, UringRun 3 [connectTurn] h ∧ Rests h.kernel [3, 7]
    ∧ (h.kernel.fds 7).generation = 1 ∧ h.server = (Server.start 3).turns [connectTurn]
    ∧ ∀ pos, h.ended pos = false := by
  obtain ⟨uring, hwait, hsq, hcq, hpend, hflight, hfds⟩ := listening_wait
  obtain ⟨h, hturns, hkernel, hserver, hended⟩ : ∃ h, UringHost.turns
      { server := Server.start 3, kernel := uring, ended := fun _ => false } [connectTurn.event]
      (fun _ => connectOutcome) = some h ∧ h.kernel = (uring.addConnection 7).2
      ∧ h.server = (Server.start 3).turns [connectTurn] ∧ ∀ pos, h.ended pos = false :=
    ⟨_, rfl, rfl, rfl, fun _ => rfl⟩
  have hadd : (uring.addConnection 7).2
      = uring.setSlot 7 (IoUring.Registry.registered (uring.fds 7) 0x2019) := by
    rw [Uring.addConnection, IoUring.Uring.setFd_eq]
    rfl
  have hseven : h.kernel.fds 7 = ⟨true, false, 0x2019, 1, 1⟩ := by
    rw [hkernel, hadd, IoUring.Uring.setSlot_same, hfds]
    rfl
  have hothers : ∀ j, j ≠ 7 → h.kernel.fds j = listening.fds j := by
    intro j hj
    rw [hkernel, hadd, IoUring.Uring.setSlot_ne uring hj, hfds]
  refine ⟨h, ?_, ⟨?_, ?_, ?_, ?_, by decide, fun j => ?_, by decide⟩, ?_, hserver, hended⟩
  · rw [← connectOutcome_plain, ← List.nil_append (plainTurns _ _)]
    exact .wait (.start rfl) (takingAll_whole listening _) hwait hturns
  · rw [hkernel]
    exact hsq
  · rw [hkernel]
    exact hflight
  · rw [hkernel]
    exact hcq
  · rw [hkernel]
    exact hpend
  · -- the entry of the new client needs its first poll, and the others are as in `listening`
    by_cases h7 : j = 7
    · rw [h7, IoUring.Uring.NeedsPoll, hseven]
      exact iff_of_true (by decide) ⟨rfl, rfl⟩
    · have hthree := listening_rests.needs j
      rw [IoUring.Uring.NeedsPoll] at hthree ⊢
      rw [hothers j h7, ← hthree]
      simp [h7]
  · rw [hseven]

/-- The poll of the client completes. -/
theorem connected_wait {u : Uring} (h : Rests u [3, 7]) (hgen : (u.fds 7).generation = 1) :
    ∃ uring, u.wait 64 (-1) true (takingAll u [{ pos := 1, res := 1, flags := 0 }])
        = (some [quietTurn.event], uring) ∧ uring.cq = [] := by
  obtain ⟨uring, hwait, -, hcq, -⟩ := h.wait (k := 1) (i := 7) rfl (by rw [hgen]; decide) 1
  exact ⟨uring, hwait, hcq⟩

/-- The client has sent the preface, and the kernel takes all that is written. -/
def clientOutcome (last : ReadEnd) : UringOutcome where
  posted := []
  accepts := []
  last := .again
  reads := { outcomes := [.got prefaceChunk], last }
  writes := quietTurn.writes
  answer := { consumed := 0, result := .error .other }
  rounds := []

theorem clientOutcome_plain : [connectTurn]
    ++ plainTurns [quietTurn.event] (fun _ => clientOutcome .again) = quietTurns := rfl

/-- The run in which the client has sent the preface. -/
theorem quiet_run : ∃ h, UringRun 3 quietTurns h ∧ h.kernel.cq = [] ∧ ∀ pos, h.ended pos = false := by
  obtain ⟨g, hrun, hrests, hgen, hserver, hended⟩ := connected_run
  obtain ⟨uring, hwait, hcq⟩ := connected_wait hrests hgen
  obtain ⟨h, hturns, hkernel, hlive⟩ : ∃ h, UringHost.turns { g with kernel := uring }
      [quietTurn.event] (fun _ => clientOutcome .again) = some h
      ∧ h.kernel.cq = uring.cq ∧ ∀ pos, h.ended pos = false := by
    rcases g with ⟨server, kernel, ended⟩
    obtain rfl : server = (Server.start 3).turns [connectTurn] := hserver
    refine ⟨_, rfl, rfl, fun pos => ?_⟩
    show Function.update ended 0 false pos = false
    by_cases hpos : pos = 0
    · rw [hpos, Function.update_self]
    · rw [Function.update_of_ne hpos]
      exact hended pos
  refine ⟨h, ?_, hkernel.trans hcq, hlive⟩
  rw [← clientOutcome_plain]
  exact .wait hrun (takingAll_whole _ _) hwait hturns

/-! ## Results -/

section

variable {h : Host Uring} {listenerFd : Int} {ts : List Turn}

/-- **The polls are exact.** In every run of the server over io_uring nothing is left in the
submission queue and no completion is saved; and whenever the server goes to sleep, the kernel has one
poll for the listener and one for each client in use, with the events that its connection calls for,
and no other. So the events that the server asks for always take effect. -/
theorem uring_polls_exact (hrun : UringRun listenerFd ts h)
    (hposs : (Server.start listenerFd).Possible ts) :
    h.server = (Server.start listenerFd).turns ts
      ∧ h.kernel.sq = [] ∧ h.kernel.pendingCqes = []
      ∧ ∀ extArg w n, h.kernel.TakesWhole (.wait 64 (-1) extArg w) → h.kernel.Blocks 64 (-1) w →
          (h.kernel.submitMissing w.submit).1 = .ok n →
          polledFor (h.kernel.asleep w) listenerFd = [pollIn ||| pollErr ||| pollHup]
            ∧ (∀ fd, fd ≠ listenerFd →
              (∀ pos, (h.server.clients pos).used = true → (h.server.clients pos).fd ≠ fd) →
              polledFor (h.kernel.asleep w) fd = [])
            ∧ ∀ pos, (h.server.clients pos).used = true → ∃ wantWrite,
                polledFor (h.kernel.asleep w) (h.server.clients pos).fd
                  = [uringEvents listenerFd (h.server.clients pos).fd wantWrite]
                ∧ (h.ended pos = false → wantWrite = (h.server.clients pos).conn.wantsWrite) := by
  obtain ⟨hserving, hserver⟩ := hrun.serving hposs
  have hsame : h.server.listenerFd = listenerFd := by
    rw [hserver, turns_listenerFd]
    rfl
  have hlinked := hserving.linked
  refine ⟨hserver, hserving.orderly.sq, hserving.orderly.pendingCqes, ?_⟩
  intro extArg w n hwhole hblocks hok
  have hpolled := hserving.polledFor hwhole hblocks hok
  have hholds := hlinked.kernel
  rw [hsame] at hholds
  refine ⟨?_, fun fd hfd hopen => ?_, fun pos hused => ?_⟩
  · rw [hpolled, hholds.interest (Function.update_self ..), uringEvents, if_pos rfl,
      Option.toList_some]
  · have hnone : h.server.io fd = none := hlinked.registered.io_none ⟨by rwa [hsame], hopen⟩
    rw [hpolled, hholds.at hfd, hnone, Option.map_none, Option.toList_none]
  · -- a client in use is in the table of the server, and its entry holds the events of this interest
    have hne := hlinked.registered.listener pos hused
    rw [hsame] at hne
    obtain ⟨wantWrite, hio⟩ := (hlinked.registered.some_iff _).mpr ⟨pos, hused, rfl⟩
    refine ⟨wantWrite, by rw [hpolled, hholds.at hne, hio, Option.map_some, Option.toList_some],
      fun hlive => ?_⟩
    rw [hlinked.armed pos hused hlive] at hio
    exact (Option.some.inj hio).symm

theorem uring_polls_exact_connected : ∃ h, UringRun 3 [connectTurn] h
    ∧ polledFor (h.kernel.asleep (takingAll h.kernel [])) 3 = [pollIn ||| pollErr ||| pollHup] := by
  obtain ⟨h, hrun, hrests, -⟩ := connected_run
  obtain ⟨n, hok⟩ := takingAll_ok h.kernel []
  obtain ⟨-, -, -, hasleep⟩ := @uring_polls_exact h 3 [connectTurn] hrun connectOutcome_possible
  exact ⟨h, hrun,
    (hasleep true _ n (takingAll_whole h.kernel []) (blocks_of hrests.cq rfl) hok).1⟩

/-- **Events are handled at once.** Whatever `h2_io_wait` returns in a run, it reports the listener and
clients in use, each at most once; and the loop over these events comes to its end, for whatever the
kernel would answer to a cancellation: no removal in this loop has one to make. -/
theorem uring_handling_prompt (hrun : UringRun listenerFd ts h)
    (hposs : (Server.start listenerFd).Possible ts) {extArg : Bool} {w : Uring.Waiting}
    (hwhole : h.kernel.TakesWhole (.wait 64 (-1) extArg w)) {events : List IoEvent} {uring : Uring}
    (hwait : h.kernel.wait 64 (-1) extArg w = (some events, uring)) :
    (events.map IoEvent.fd).Nodup
      ∧ (∀ event ∈ events, event.fd = listenerFd
        ∨ ∃ pos, (h.server.clients pos).used = true ∧ (h.server.clients pos).fd = event.fd)
      ∧ ∀ outcomes, h.server.Possible (plainTurns events outcomes) →
          ∃ h', UringHost.turns { h with kernel := uring } events outcomes = some h'
            ∧ h'.server = h.server.turns (plainTurns events outcomes) := by
  obtain ⟨hserving, hserver⟩ := hrun.serving hposs
  have hsame : h.server.listenerFd = listenerFd := by
    rw [hserver, turns_listenerFd]
    rfl
  have hbefore := hserving.wait hwhole hwait
  refine ⟨hbefore.nodup, fun event hevent => ?_, fun outcomes houtcomes => ?_⟩
  · obtain ⟨i, hi, hused, -⟩ := hbefore.idle event.fd (List.mem_map_of_mem hevent)
    by_cases hlistener : event.fd = listenerFd
    · exact Or.inl hlistener
    · right
      rw [← hsame] at hlistener
      have hentry := (hbefore.linked.kernel.at hlistener).symm.trans
        (interestOf_eq_some.mpr ⟨i, hi, hused, rfl⟩)
      obtain ⟨wantWrite, hio, -⟩ := Option.map_eq_some_iff.mp hentry
      exact (hserving.linked.registered.some_iff event.fd).mp ⟨wantWrite, hio⟩
  · obtain ⟨h', hturns, -, hserver'⟩ := hbefore.turns houtcomes
    exact ⟨h', hturns, hserver'⟩

/-- The client closes its side after the preface, and takes the SETTINGS frame. -/
def leaveTurns : List Turn := plainTurns [quietTurn.event] fun _ => clientOutcome .endOfFile

/-- The event of the client is handled, and the client is closed and removed, whatever
`io_uring_enter` would say. -/
theorem uring_handling_prompt_removal : ∃ g uring h, UringRun 3 [connectTurn] g
    ∧ g.kernel.wait 64 (-1) true (takingAll g.kernel [{ pos := 1, res := 1, flags := 0 }])
      = (some [quietTurn.event], uring)
    ∧ UringHost.turns { g with kernel := uring } [quietTurn.event]
      (fun _ => clientOutcome .endOfFile) = some h
    ∧ h.server = g.server.turns leaveTurns
    ∧ (g.server.clients 0).used = true ∧ (h.server.clients 0).used = false := by
  obtain ⟨g, hrun, hrests, hgen, hserver, -⟩ := connected_run
  obtain ⟨uring, hwait, -⟩ := connected_wait hrests hgen
  obtain ⟨h, hturns, hafter⟩ := (@uring_handling_prompt g 3 [connectTurn] hrun
    connectOutcome_possible true _ (takingAll_whole g.kernel _) _ uring hwait).2.2
      (fun _ => clientOutcome .endOfFile) ⟨trivial, trivial⟩
  refine ⟨g, uring, h, hrun, hwait, hturns, hafter, ?_, ?_⟩
  · rw [hserver]
    decide +kernel
  · rw [hafter, hserver]
    decide +kernel

/-- What wakes the poll of the listener or of a client. -/
theorem uringReported_ne {fd : Int} {w : Bool} (hlistener : fd = listenerFd → w = false)
    (status : Status) : epollReported (uringEvents listenerFd fd w) status ≠ 0
      ↔ (status.input || status.ended || w && status.space) = true := by
  rcases status with ⟨input, space, readClosed, broken⟩
  unfold uringEvents
  by_cases hfd : fd = listenerFd
  · rw [if_pos hfd, hlistener hfd]
    cases input <;> cases space <;> cases readClosed <;> cases broken <;> decide
  · rw [if_neg hfd]
    cases input <;> cases space <;> cases readClosed <;> cases broken <;> cases w <;> decide

/-- A poll in flight is for an entry of the table. -/
theorem Serving.poll_interest {fds : List Int} (h' : Serving h fds) {extArg : Bool}
    {w : Uring.Waiting} (hwhole : h.kernel.TakesWhole (.wait 64 (-1) extArg w))
    (hblocks : h.kernel.Blocks 64 (-1) w) {n : Nat}
    (hok : (h.kernel.submitMissing w.submit).1 = .ok n) {sqe : Sqe}
    (hsqe : sqe ∈ (h.kernel.asleep w).inFlight) : ∃ wantWrite,
    Function.update h.server.io h.server.listenerFd (some false) sqe.fd = some wantWrite
      ∧ sqe.pollEvents = uringEvents h.server.listenerFd sqe.fd wantWrite := by
  have hmem : sqe.pollEvents ∈ Io.polledFor (h.kernel.asleep w) sqe.fd :=
    List.mem_map_of_mem (List.mem_filter.mpr ⟨hsqe, decide_eq_true rfl⟩)
  rw [h'.polledFor hwhole hblocks hok, h'.linked.kernel, Option.mem_toList] at hmem
  obtain ⟨wantWrite, hio, hevents⟩ := Option.map_eq_some_iff.mp hmem
  exact ⟨wantWrite, hio, hevents.symm⟩

/-- **A server that sleeps in `io_uring_enter` has nothing to do** (`sleeping_done`): it sleeps while
no poll that the kernel has would report anything. -/
theorem uring_sleeping_done (hrun : UringRun listenerFd ts h)
    (hposs : (Server.start listenerFd).Possible ts) {extArg : Bool} {w : Uring.Waiting}
    (hwhole : h.kernel.TakesWhole (.wait 64 (-1) extArg w)) (hblocks : h.kernel.Blocks 64 (-1) w)
    {n : Nat} (hok : (h.kernel.submitMissing w.submit).1 = .ok n) {status : Int → Status}
    (hsleep : ∀ sqe ∈ (h.kernel.asleep w).inFlight,
      epollReported sqe.pollEvents (status sqe.fd) = 0)
    (hended : ∀ pos, h.ended pos = true → (status (h.server.clients pos).fd).ended = true)
    {arrived : Int → List UInt8}
    (harrived : ∀ fd log,
      Sessions.logAfter ((Server.start listenerFd).turnsTraffic ts) fd = some log →
        readBytes log ≠ arrived fd → (status fd).input = true) :
    (status listenerFd).input = false
      ∧ ∀ pos, (h.server.clients pos).used = true →
        ∃ log, Sessions.logAfter ((Server.start listenerFd).turnsTraffic ts)
            (h.server.clients pos).fd = some log
          ∧ readBytes log = arrived (h.server.clients pos).fd
          ∧ ((status (h.server.clients pos).fd).space = true →
              writtenBytes log = (exec (log.map SocketCall.op)).total
                ∧ ((exec (log.map SocketCall.op)).AllOk →
                  writtenBytes log = (outcome (arrived (h.server.clients pos).fd)).2)) := by
  obtain ⟨hserving, hserver⟩ := hrun.serving hposs
  refine hserving.linked.idle_done hserver hposs (fun fd wantWrite hentry => ?_) hended harrived
  -- the entry has a poll in flight, which is quiet
  have hpolled := hserving.polledFor hwhole hblocks hok fd
  rw [hserving.linked.kernel.interest hentry, Option.toList_some, polledFor] at hpolled
  obtain ⟨sqe, hsqe, hevents⟩ : ∃ sqe ∈ (h.kernel.asleep w).inFlight.filter fun sqe => sqe.fd = fd,
      sqe.pollEvents = uringEvents h.server.listenerFd fd wantWrite := by
    apply List.mem_map.mp
    rw [hpolled]
    exact List.mem_singleton_self _
  obtain ⟨hmem, hfd⟩ := List.mem_filter.mp hsqe
  have hquiet := hsleep sqe hmem
  rw [of_decide_eq_true hfd, hevents] at hquiet
  have hlistener : fd = h.server.listenerFd → wantWrite = false := by
    rintro rfl
    rw [Function.update_self] at hentry
    exact (Option.some.inj hentry).symm
  rw [← Bool.not_eq_true, ← uringReported_ne hlistener]
  exact not_not.mpr hquiet

/-- No poll would report that there is room to write. -/
theorem quiet_polls (hserving : Serving h [])
    (hserver : h.server = (Server.start 3).turns quietTurns) {w : Uring.Waiting}
    (hwhole : h.kernel.TakesWhole (.wait 64 (-1) true w)) (hblocks : h.kernel.Blocks 64 (-1) w)
    {n : Nat} (hok : (h.kernel.submitMissing w.submit).1 = .ok n) :
    ∀ sqe ∈ (h.kernel.asleep w).inFlight, epollReported sqe.pollEvents idleStatus = 0 := by
  intro sqe hsqe
  obtain ⟨wantWrite, hio, hevents⟩ := hserving.poll_interest hwhole hblocks hok hsqe
  have hregistered := hserving.linked.registered
  rw [hserver] at hregistered
  rw [hserver, turns_listenerFd] at hio hevents
  have hfalse := quietTurns_interest hregistered hio
  rw [hevents, hfalse]
  by_contra hne
  exact absurd ((uringReported_ne (fun _ => rfl) idleStatus).mp hne) (by decide)

/-- The client has sent the preface, which is read, and has taken the SETTINGS frame. -/
theorem uring_sleeping_done_quiet : ∃ log,
    Sessions.logAfter ((Server.start 3).turnsTraffic quietTurns) 7 = some log
      ∧ readBytes log = clientPreface
      ∧ writtenBytes log = (exec (log.map SocketCall.op)).total := by
  obtain ⟨h, hrun, hcq, hended⟩ := quiet_run
  obtain ⟨n, hok⟩ := takingAll_ok h.kernel []
  obtain ⟨hserving, hserver⟩ := hrun.serving quietTurns_possible
  have hdone := @uring_sleeping_done h 3 quietTurns hrun quietTurns_possible true _
    (takingAll_whole h.kernel []) (blocks_of hcq rfl) n hok (fun _ => idleStatus)
    (quiet_polls hserving hserver (takingAll_whole h.kernel []) (blocks_of hcq rfl) hok)
    (fun pos htrue => by rw [hended pos] at htrue; cases htrue)
    quietArrived
    (fun fd log hlog hne => absurd (quietTurns_arrived fd log hlog) hne)
  rw [hserver] at hdone
  obtain ⟨log, hlog, hread, hwritten⟩ := hdone.2 0 (by decide +kernel)
  exact ⟨log, hlog, hread, (hwritten rfl).1⟩

end

end C11Omo.Io
