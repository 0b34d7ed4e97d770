import C11Omo.Io.Backend
import C11Omo.IoUring.Interest

set_option autoImplicit false

/-! # The server over epoll

The epoll backend (`src/io_epoll.c`, `IoUring.Epoll`) as a `Backend`: what `h2_io_wait` makes of what
`epoll_wait` reports, and that `EPOLL_CTL_ADD` fails without memory. The backend is exact
(`epoll_exact`): the server adds a descriptor only when it is not on the interest list and modifies it
only when it is, so that of the errors of `epoll_ctl` only a lack of memory ever occurs.
-/

namespace C11Omo.Io

open C11Omo.Http2 C11Omo.Lib
open C11Omo.IoUring (Epoll pollIn pollOut pollErr pollHup pollRdHup)

/-! ## The backend -/

/-- What occurs on a descriptor. -/
def epollOccurred (status : Status) : Nat :=
  (if status.input || status.readClosed then pollIn else 0)
    ||| (if status.space then pollOut else 0)
    ||| (if status.readClosed then pollRdHup else 0)
    ||| (if status.broken then pollErr ||| pollHup else 0)

/-- What `epoll_wait` reports of a descriptor on the list: `EPOLLERR` and `EPOLLHUP` are reported
whether they are asked for or not. -/
def epollReported (events : Nat) (status : Status) : Nat :=
  epollOccurred status &&& (events ||| pollErr ||| pollHup)

/-- The event that `h2_io_wait` makes of what `epoll_wait` reports. -/
def epollIoEvent (fd : Int) (reported : Nat) : IoEvent where
  fd := fd
  readable := reported &&& pollIn ≠ 0
  writable := reported &&& pollOut ≠ 0
  closed := reported &&& (pollErr ||| pollHup ||| pollRdHup) ≠ 0

/-- The events of a descriptor for `h2_io_wait`. -/
def epollReady (e : Epoll) (fd : Int) (status : Status) : List IoEvent :=
  match e.interest fd with
  | none => []
  | some events =>
      if epollReported events status = 0 then [] else [epollIoEvent fd (epollReported events status)]

/-- `src/io_epoll.c`. A descriptor that is closed is taken off the interest list. -/
def epoll : Backend Epoll where
  init := .init
  addListener := fun e fd memory => if memory.first then e.addListener fd else (-1, e)
  addConnection := fun e fd memory => if memory.first then e.addConnection fd else (-1, e)
  modConnection := Epoll.modConnection
  remove := Epoll.remove
  closed := fun e fd => { interest := Function.update e.interest fd none }
  enough := Memory.first
  ready := epollReady

/-! ## The interest list -/

/-- The events that the server asks for, with and without output. -/
def interestEvents (wantWrite : Bool) : Nat :=
  let events := pollIn ||| pollRdHup
  if wantWrite then events ||| pollOut else events

/-- The list holds the listener and what is in `io`. -/
def EpollHolds (listenerFd : Int) (io : Int → Option Bool) (e : Epoll) : Prop :=
  e.interest = fun fd => (Function.update io listenerFd (some false) fd).map interestEvents

section

variable {l fd : Int} {io : Int → Option Bool} {e : Epoll}

theorem EpollHolds.at (h : EpollHolds l io e) (hfd : fd ≠ l) :
    e.interest fd = (io fd).map interestEvents := by
  rw [h]
  show (Function.update io l (some false) fd).map interestEvents = _
  rw [Function.update_of_ne hfd]

theorem EpollHolds.listener (h : EpollHolds l io e) : e.interest l = some (interestEvents false) := by
  rw [h]
  show (Function.update io l (some false) l).map interestEvents = _
  rw [Function.update_self, Option.map_some]

/-- An entry of the list is set. -/
theorem EpollHolds.update (h : EpollHolds l io e) (hfd : fd ≠ l) (interest : Option Bool) :
    EpollHolds l (Function.update io fd interest)
      { interest := Function.update e.interest fd (interest.map interestEvents) } := by
  funext fd'
  show Function.update e.interest fd _ fd'
    = (Function.update (Function.update io fd interest) l (some false) fd').map interestEvents
  rw [Function.update_comm hfd interest (some false) io]
  by_cases hfd' : fd' = fd
  · subst hfd'
    rw [Function.update_self, Function.update_self]
  · rw [Function.update_of_ne hfd', Function.update_of_ne hfd', h]

theorem ctl_add (h : e.interest fd = none) (events : Nat) : e.ctl .add fd events
    = (0, { interest := Function.update e.interest fd (some events) }) := by
  unfold Epoll.ctl
  simp only [h]

theorem ctl_mod {old : Nat} (h : e.interest fd = some old) (events : Nat) : e.ctl .mod fd events
    = (0, { interest := Function.update e.interest fd (some events) }) := by
  unfold Epoll.ctl
  simp only [h]

/-- After `h2_io_remove` a descriptor is not on the list. -/
theorem remove_interest (e : Epoll) (fd : Int) :
    (e.remove fd).2.interest = Function.update e.interest fd none := by
  unfold Epoll.remove Epoll.ctl
  rcases h : e.interest fd with _ | old
  · exact (Function.update_eq_self_iff.mpr h.symm).symm
  · rfl

/-- **What wakes the server.** The listener and a client wake it when there is something to read and
when they end, and a client with output also when there is room for it. -/
theorem reported_ne (w : Bool) (status : Status) : epollReported (interestEvents w) status ≠ 0
    ↔ (status.input || status.ended || w && status.space) = true := by
  rcases status with ⟨input, space, readClosed, broken⟩
  cases input <;> cases space <;> cases readClosed <;> cases broken <;> cases w <;> decide

end

/-- **The epoll backend is exact.** -/
theorem epoll_exact : epoll.Exact EpollHolds where
  listener := by
    intro fd memory e hadd
    rcases memory with ⟨first, second⟩
    cases first with
    | false => cases hadd
    | true =>
        change Epoll.ctl .init .add fd _ = (0, e) at hadd
        rw [ctl_add rfl] at hadd
        obtain rfl := (congrArg Prod.snd hadd).symm
        funext fd'
        show Function.update (fun _ => none) fd _ fd'
          = (Function.update (fun _ => none) fd (some false) fd').map interestEvents
        by_cases hfd : fd' = fd
        · subst hfd
          rw [Function.update_self, Function.update_self]
          rfl
        · rw [Function.update_of_ne hfd, Function.update_of_ne hfd]
          rfl
  added := by
    intro l io e fd memory hholds hfd hnone henough
    have hentry : e.interest fd = none := by rw [hholds.at hfd, hnone, Option.map_none]
    have hcall : epoll.addConnection e fd memory
        = (0, { interest := Function.update e.interest fd (some (interestEvents false)) }) :=
      (if_pos henough).trans (ctl_add hentry _)
    rw [hcall]
    exact ⟨rfl, hholds.update hfd (some false)⟩
  -- nothing has been added, and `close` finds nothing to take away
  failed := by
    intro l io e fd memory hholds hfd hnone henough
    have hcall : epoll.addConnection e fd memory = (-1, e) := by
      change memory.first = false at henough
      exact if_neg (by simp [henough])
    rw [hcall]
    refine ⟨by simp, ?_⟩
    show EpollHolds l io { interest := Function.update (e.remove fd).2.interest fd none }
    rw [remove_interest, Function.update_idem]
    have hholds' := hholds.update hfd none
    rwa [← hnone, Function.update_eq_self, hnone] at hholds'
  modified := by
    intro l io e fd w w' hholds hfd hsome
    have hentry : e.interest fd = some (interestEvents w) := by
      rw [hholds.at hfd, hsome, Option.map_some]
    have hcall : epoll.modConnection e fd w'
        = (0, { interest := Function.update e.interest fd (some (interestEvents w')) }) :=
      ctl_mod hentry _
    rw [hcall]
    exact ⟨rfl, hholds.update hfd (some w')⟩
  removed := by
    intro l io e fd hholds hfd
    show EpollHolds l _ { interest := Function.update (e.remove fd).2.interest fd none }
    rw [remove_interest, Function.update_idem]
    exact hholds.update hfd none
  closed := by
    intro l io e fd hholds hfd hnone
    have hholds' := hholds.update hfd none
    rwa [← hnone, Function.update_eq_self, hnone] at hholds'
  ready := by
    intro l io e fd status hholds
    show epollReady e fd status ≠ [] ↔ _
    unfold epollReady
    rw [hholds]
    rcases hreg : Function.update io l (some false) fd with _ | w
    · simp [hreg]
    · simp only [hreg, Option.map_some, Option.some.injEq, exists_eq_left']
      rw [← reported_ne w status]
      by_cases hzero : epollReported (interestEvents w) status = 0
      · rw [if_pos hzero]
        exact iff_of_false (not_not.mpr rfl) (not_not.mpr hzero)
      · rw [if_neg hzero]
        exact iff_of_true (by simp) hzero

/-! ## Results -/

section

variable {h : Host Epoll} {listenerFd : Int} {memory : Memory} {ts : List HostTurn}

/-- **The interest list is exact.** In every run of the server over epoll the list holds the listener
and the clients in use, each with the events that its connection calls for, and nothing else; and the
server is what it would be if only its own table said what is registered. -/
theorem epoll_interest_exact (hstart : Host.start epoll listenerFd memory = some h)
    (hposs : (Server.start listenerFd).Possible (ts.map (HostTurn.plain epoll))) :
    (h.turns epoll ts).server = (Server.start listenerFd).turns (ts.map (HostTurn.plain epoll))
      ∧ (h.turns epoll ts).kernel.interest listenerFd = some (pollIn ||| pollRdHup)
      ∧ (∀ fd, fd ≠ listenerFd → ((∃ events, (h.turns epoll ts).kernel.interest fd = some events)
          ↔ ∃ pos, ((h.turns epoll ts).server.clients pos).used = true
            ∧ ((h.turns epoll ts).server.clients pos).fd = fd))
      ∧ ∀ pos, ((h.turns epoll ts).server.clients pos).used = true →
          ∃ wantWrite, (h.turns epoll ts).kernel.interest ((h.turns epoll ts).server.clients pos).fd
              = some (interestEvents wantWrite)
            ∧ ((h.turns epoll ts).ended pos = false →
                wantWrite = ((h.turns epoll ts).server.clients pos).conn.wantsWrite) := by
  obtain ⟨hlinked, hserver, hlistener⟩ := Host.run_linked epoll_exact hstart hposs
  have hrep := hlinked.kernel
  rw [hlistener] at hrep
  refine ⟨hserver, ?_, fun fd hfd => ?_, fun pos hused => ?_⟩
  · exact hrep.listener
  · -- the entries of the list, the table of the server and the clients in use
    rw [hrep.at hfd, ← hlinked.registered.some_iff]
    constructor
    · rintro ⟨events, hevents⟩
      obtain ⟨w, hw, -⟩ := Option.map_eq_some_iff.mp hevents
      exact ⟨w, hw⟩
    · rintro ⟨w, hw⟩
      exact ⟨interestEvents w, by rw [hw, Option.map_some]⟩
  · have hne := hlinked.registered.listener pos hused
    rw [hlistener] at hne
    obtain ⟨w, hw⟩ := (hlinked.registered.some_iff _).mpr ⟨pos, hused, rfl⟩
    refine ⟨w, by rw [hrep.at hne, hw, Option.map_some], fun hlive => ?_⟩
    rw [hlinked.armed pos hused hlive] at hw
    exact (Option.some.inj hw).symm

theorem epoll_interest_exact_quiet : ∃ h, Host.start epoll 3 ⟨true, true⟩ = some h
    ∧ (h.turns epoll quietHostTurns).kernel.interest 3 = some (pollIn ||| pollRdHup) :=
  ⟨_, rfl, (@epoll_interest_exact _ 3 ⟨true, true⟩ quietHostTurns rfl
    (by rw [quietHostTurns_plain rfl]; exact quietTurns_possible)).2.1⟩

/-- **A server that sleeps in `epoll_wait` has nothing to do** (`sleeping_done`). -/
theorem epoll_sleeping_done (hstart : Host.start epoll listenerFd memory = some h)
    (hposs : (Server.start listenerFd).Possible (ts.map (HostTurn.plain epoll)))
    {status : Int → Status} (hsleep : (h.turns epoll ts).Sleeps epoll status)
    (hended : ∀ pos, (h.turns epoll ts).ended pos = true →
      (status ((h.turns epoll ts).server.clients pos).fd).ended = true)
    {arrived : Int → List UInt8}
    (harrived : ∀ fd log, Sessions.logAfter
      ((Server.start listenerFd).turnsTraffic (ts.map (HostTurn.plain epoll))) fd = some log →
        readBytes log ≠ arrived fd → (status fd).input = true) :
    (status listenerFd).input = false
      ∧ ∀ pos, ((h.turns epoll ts).server.clients pos).used = true →
        ∃ log, Sessions.logAfter ((Server.start listenerFd).turnsTraffic
            (ts.map (HostTurn.plain epoll))) ((h.turns epoll ts).server.clients pos).fd = some log
          ∧ readBytes log = arrived ((h.turns epoll ts).server.clients pos).fd
          ∧ ((status ((h.turns epoll ts).server.clients pos).fd).space = true →
              writtenBytes log = (exec (log.map SocketCall.op)).total
                ∧ ((exec (log.map SocketCall.op)).AllOk → writtenBytes log
                    = (outcome (arrived ((h.turns epoll ts).server.clients pos).fd)).2)) :=
  sleeping_done epoll_exact hstart hposs hsleep hended harrived

end

theorem epoll_sleeping_done_quiet : ∃ log,
    Sessions.logAfter ((Server.start 3).turnsTraffic quietTurns) 7 = some log
      ∧ readBytes log = clientPreface := by
  have hplain : quietHostTurns.map (HostTurn.plain epoll) = quietTurns := quietHostTurns_plain rfl
  have hdone := @epoll_sleeping_done _ 3 ⟨true, true⟩ quietHostTurns rfl
    (by rw [hplain]; exact quietTurns_possible) (fun _ => idleStatus)
    (@quiet_sleeps _ _ _ _ epoll_exact ⟨true, true⟩ rfl rfl)
    (by decide +kernel) quietArrived
    (by rw [hplain]; exact fun fd log hlog hne => absurd (quietTurns_arrived fd log hlog) hne)
  rw [hplain] at hdone
  obtain ⟨log, hlog, hread, -⟩ := hdone.2 0 (by decide +kernel)
  exact ⟨log, hlog, hread⟩

end C11Omo.Io
