import C11Omo.Io.Backend

set_option autoImplicit false

/-! # The kqueue backend

`src/io_kqueue.c`. A descriptor has a filter for reading and one for writing, each of them enabled or
disabled; `keventChange` follows the manual page of `kevent`. A connection is registered by two
changes, and when the second one fails the first is taken back by `h2_close_client`. The backend is
exact (`kqueue_exact`): the listener has a filter for reading only, a client has both, and the one for
writing is enabled as its connection calls for.
-/

namespace C11Omo.Io

open C11Omo.Http2 C11Omo.Lib

/-! ## The kernel -/

inductive Filter
  | read
  | write
  deriving DecidableEq

/-- The flags of a change: `EV_ADD`, `EV_ENABLE`, `EV_DISABLE` and `EV_DELETE`. -/
structure EvFlags where
  add : Bool := false
  enable : Bool := false
  disable : Bool := false
  delete : Bool := false

/-- The filters of a descriptor, `none` if there is none, and whether it is enabled. -/
structure Filters where
  read : Option Bool
  write : Option Bool

def Filters.get (filters : Filters) : Filter → Option Bool
  | .read => filters.read
  | .write => filters.write

def Filters.set (filters : Filters) (filter : Filter) (entry : Option Bool) : Filters :=
  match filter with
  | .read => { filters with read := entry }
  | .write => { filters with write := entry }

/-- The filters of a kqueue. -/
abbrev Kq := Int → Filters

/-- What a change makes of a filter, `none` for `ENOENT` and `ENOMEM`. `EV_ADD` of a filter that is
there modifies it, and enables it unless `EV_DISABLE` says otherwise. -/
def EvFlags.change (flags : EvFlags) (memory : Bool) : Option Bool → Option (Option Bool)
  | none => if flags.add && !flags.delete && memory then some (some (!flags.disable)) else none
  | some enabled =>
      if flags.delete then some none
      else some (some (!flags.disable && (flags.add || flags.enable || enabled)))

/-- `h2_io_kevent`. -/
def keventChange (kq : Kq) (fd : Int) (filter : Filter) (flags : EvFlags) (memory : Bool) : Int × Kq :=
  match flags.change memory ((kq fd).get filter) with
  | none => (-1, kq)
  | some entry => (0, Function.update kq fd ((kq fd).set filter entry))

/-! ## The backend -/

namespace Kqueue

/-- `h2_io_add_listener`. -/
def addListener (kq : Kq) (fd : Int) (memory : Memory) : Int × Kq :=
  keventChange kq fd .read { add := true, enable := true } memory.first

/-- `h2_io_add_connection`. -/
def addConnection (kq : Kq) (fd : Int) (memory : Memory) : Int × Kq :=
  let (ret, kq) := keventChange kq fd .read { add := true, enable := true } memory.first
  if ret ≠ 0 then (-1, kq)
  else keventChange kq fd .write { add := true, disable := true } memory.second

/-- `h2_io_mod_connection`. -/
def modConnection (kq : Kq) (fd : Int) (wantWrite : Bool) : Int × Kq :=
  keventChange kq fd .write (if wantWrite then { enable := true } else { disable := true }) true

/-- `h2_io_remove`. -/
def remove (kq : Kq) (fd : Int) : Int × Kq :=
  let (_, kq) := keventChange kq fd .read { delete := true } true
  let (_, kq) := keventChange kq fd .write { delete := true } true
  (0, kq)

/-- The event that `h2_io_wait` makes of a filter that has fired. -/
def ioEvent (fd : Int) (filter : Filter) (eof : Bool) : IoEvent where
  fd := fd
  readable := filter = .read
  writable := filter = .write
  closed := eof

/-- The events of a descriptor for `h2_io_wait`: a filter fires if it is enabled and there is
something to read or room for output, or its direction is at its end, which sets `EV_EOF`. -/
def ready (kq : Kq) (fd : Int) (status : Status) : List IoEvent :=
  (if (kq fd).read = some true ∧ (status.input || status.readClosed || status.broken) then
    [ioEvent fd .read (status.readClosed || status.broken)] else [])
  ++ if (kq fd).write = some true ∧ (status.space || status.broken) then
    [ioEvent fd .write status.broken] else []

end Kqueue

/-- `src/io_kqueue.c`. A descriptor that is closed loses its filters. -/
def kqueue : Backend Kq where
  init := fun _ => { read := none, write := none }
  addListener := Kqueue.addListener
  addConnection := Kqueue.addConnection
  modConnection := Kqueue.modConnection
  remove := Kqueue.remove
  closed := fun kq fd => Function.update kq fd { read := none, write := none }
  enough := fun memory => memory.first && memory.second
  ready := Kqueue.ready

/-! ## The filters -/

/-- The filters of a client whose interest in writing is `entry`. -/
def clientFilters (entry : Option Bool) : Filters where
  read := entry.map fun _ => true
  write := entry

/-- The listener has a filter for reading, and each client in `io` has its two filters. -/
def Kqueue.Rep (listenerFd : Int) (io : Int → Option Bool) (kq : Kq) : Prop :=
  kq = Function.update (fun fd => clientFilters (io fd)) listenerFd { read := some true, write := none }

namespace Kqueue

variable {l fd : Int} {io : Int → Option Bool} {kq : Kq}

theorem Rep.listener (h : Rep l io kq) : kq l = { read := some true, write := none } := by
  rw [h, Function.update_self]

theorem Rep.at (h : Rep l io kq) (hfd : fd ≠ l) : kq fd = clientFilters (io fd) := by
  rw [h, Function.update_of_ne hfd]

/-- The filters of a client are set. -/
theorem Rep.update (h : Rep l io kq) (hfd : fd ≠ l) (interest : Option Bool) :
    Rep l (Function.update io fd interest) (Function.update kq fd (clientFilters interest)) := by
  funext fd'
  by_cases hl : fd' = l
  · subst hl
    rw [Function.update_self, Function.update_of_ne (Ne.symm hfd), h.listener]
  · rw [Function.update_of_ne hl]
    by_cases hfd' : fd' = fd
    · subst hfd'
      rw [Function.update_self, Function.update_self]
    · rw [Function.update_of_ne hfd', Function.update_of_ne hfd', h.at hl]

/-- A change that goes through. -/
theorem keventChange_some {kq : Kq} {fd : Int} {filter : Filter} {flags : EvFlags} {memory : Bool}
    {filters : Filters} {entry : Option Bool} (hfilters : kq fd = filters)
    (hchange : flags.change memory (filters.get filter) = some entry) :
    keventChange kq fd filter flags memory
      = (0, Function.update kq fd (filters.set filter entry)) := by
  rw [keventChange, hfilters, hchange]

theorem keventChange_none {kq : Kq} {fd : Int} {filter : Filter} {flags : EvFlags} {memory : Bool}
    {filters : Filters} (hfilters : kq fd = filters)
    (hchange : flags.change memory (filters.get filter) = none) :
    keventChange kq fd filter flags memory = (-1, kq) := by
  rw [keventChange, hfilters, hchange]

/-- **A connection is registered** by two changes, of which both can fail. -/
theorem addConnection_spec (hfilters : kq fd = clientFilters none) (memory : Memory) :
    (addConnection kq fd memory).1 = (if memory.first && memory.second then 0 else -1)
      ∧ ∃ filters, (addConnection kq fd memory).2 = Function.update kq fd filters
        ∧ ((memory.first && memory.second) = true → filters = clientFilters (some false)) := by
  rcases memory with ⟨first, second⟩
  -- the filter for reading is added first, then the one for writing
  cases first with
  | false =>
      have hcall : addConnection kq fd { first := false, second } = (-1, kq) := by
        rw [addConnection, keventChange_none hfilters rfl]
        rfl
      rw [hcall]
      exact ⟨rfl, kq fd, (Function.update_eq_self ..).symm, by simp⟩
  | true =>
      have hread : keventChange kq fd .read { add := true, enable := true } true
          = (0, Function.update kq fd { read := some true, write := none }) :=
        keventChange_some hfilters rfl
      have hmiddle : Function.update kq fd { read := some true, write := none } fd
          = { read := some true, write := none } := Function.update_self ..
      cases second with
      | false =>
          have hcall : addConnection kq fd { first := true, second := false }
              = (-1, Function.update kq fd { read := some true, write := none }) := by
            rw [addConnection, hread]
            exact keventChange_none hmiddle rfl
          rw [hcall]
          exact ⟨rfl, _, rfl, by simp⟩
      | true =>
          have hcall : addConnection kq fd { first := true, second := true }
              = (0, Function.update kq fd (clientFilters (some false))) := by
            rw [addConnection, hread]
            refine (keventChange_some hmiddle rfl).trans ?_
            rw [Function.update_idem]
            rfl
          rw [hcall]
          exact ⟨rfl, _, rfl, fun _ => rfl⟩

/-- **What wakes the server.** -/
theorem ready_ne (status : Status) : ready kq fd status ≠ []
    ↔ (kq fd).read = some true ∧ (status.input || status.readClosed || status.broken) = true
      ∨ (kq fd).write = some true ∧ (status.space || status.broken) = true := by
  unfold ready
  by_cases hread : (kq fd).read = some true
      ∧ (status.input || status.readClosed || status.broken) = true
  · rw [if_pos hread]
    exact iff_of_true (by simp) (Or.inl hread)
  · rw [if_neg hread, List.nil_append]
    by_cases hwrite : (kq fd).write = some true ∧ (status.space || status.broken) = true
    · rw [if_pos hwrite]
      exact iff_of_true (by simp) (Or.inr hwrite)
    · rw [if_neg hwrite]
      exact iff_of_false (not_not.mpr rfl) (not_or.mpr ⟨hread, hwrite⟩)

/-- Closing a descriptor behind `h2_io_remove` leaves the filters of no other in another state. -/
theorem closed_remove (kq : Kq) (fd : Int) :
    kqueue.closed (kqueue.remove kq fd).2 fd = Function.update kq fd (clientFilters none) := by
  have hother : ∀ (kq : Kq) filter flags memory,
      ∃ filters, (keventChange kq fd filter flags memory).2 = Function.update kq fd filters := by
    intro kq filter flags memory
    unfold keventChange
    rcases flags.change memory ((kq fd).get filter) with _ | entry
    · exact ⟨kq fd, (Function.update_eq_self ..).symm⟩
    · exact ⟨_, rfl⟩
  obtain ⟨first, hfirst⟩ := hother kq .read { delete := true } true
  obtain ⟨second, hsecond⟩ :=
    hother (keventChange kq fd .read { delete := true } true).2 .write { delete := true } true
  show Function.update (remove kq fd).2 fd _ = _
  have hremove : (remove kq fd).2 = Function.update kq fd second := by
    show (keventChange (keventChange kq fd .read _ true).2 fd .write _ true).2 = _
    rw [hsecond, hfirst, Function.update_idem]
  rw [hremove, Function.update_idem]
  rfl

end Kqueue

/-- **The kqueue backend is exact.** -/
theorem kqueue_exact : kqueue.Exact Kqueue.Rep where
  listener := by
    intro fd memory kernel hadd
    change keventChange (fun _ => clientFilters none) fd .read _ memory.first = (0, kernel) at hadd
    rcases memory with ⟨first, second⟩
    cases first with
    | false =>
        rw [Kqueue.keventChange_none rfl rfl] at hadd
        cases hadd
    | true =>
        rw [Kqueue.keventChange_some rfl rfl] at hadd
        exact (congrArg Prod.snd hadd).symm
  added := by
    intro l io kq fd memory hrep hfd hnone henough
    have hfilters : kq fd = clientFilters none := by rw [hrep.at hfd, hnone]
    obtain ⟨hret, filters, hkq, hset⟩ := Kqueue.addConnection_spec hfilters memory
    change (memory.first && memory.second) = true at henough
    rw [if_pos henough] at hret
    refine ⟨hret, ?_⟩
    show Kqueue.Rep l _ (Kqueue.addConnection kq fd memory).2
    rw [hkq, hset henough]
    exact hrep.update hfd (some false)
  failed := by
    intro l io kq fd memory hrep hfd hnone henough
    have hfilters : kq fd = clientFilters none := by rw [hrep.at hfd, hnone]
    obtain ⟨hret, filters, hkq, -⟩ := Kqueue.addConnection_spec hfilters memory
    change (memory.first && memory.second) = false at henough
    rw [if_neg (by simp [henough])] at hret
    constructor
    · show (Kqueue.addConnection kq fd memory).1 ≠ 0
      rw [hret]
      decide
    · -- whatever the first change has left is taken back
      show Kqueue.Rep l io
        (kqueue.closed (kqueue.remove (Kqueue.addConnection kq fd memory).2 fd).2 fd)
      rw [Kqueue.closed_remove, hkq, Function.update_idem, ← hfilters, Function.update_eq_self]
      exact hrep
  modified := by
    intro l io kq fd w w' hrep hfd hsome
    have hfilters : kq fd = clientFilters (some w) := by rw [hrep.at hfd, hsome]
    have hcall : Kqueue.modConnection kq fd w'
        = (0, Function.update kq fd (clientFilters (some w'))) := by
      cases w' with
      | false => exact Kqueue.keventChange_some hfilters rfl
      | true => exact Kqueue.keventChange_some hfilters rfl
    show (Kqueue.modConnection kq fd w').1 = 0 ∧ Kqueue.Rep l _ (Kqueue.modConnection kq fd w').2
    rw [hcall]
    exact ⟨rfl, hrep.update hfd (some w')⟩
  removed := by
    intro l io kq fd hrep hfd
    rw [Kqueue.closed_remove]
    exact hrep.update hfd none
  closed := by
    intro l io kq fd hrep hfd hnone
    have hrep' := hrep.update hfd none
    rwa [← hnone, Function.update_eq_self, hnone] at hrep'
  ready := by
    intro l io kq fd status hrep
    refine (Kqueue.ready_ne status).trans ?_
    rcases status with ⟨input, space, readClosed, broken⟩
    by_cases hl : fd = l
    · subst hl
      rw [hrep.listener]
      simp [Status.ended, Bool.or_assoc]
    · rw [hrep.at hl, Function.update_of_ne hl]
      rcases io fd with _ | w
      · simp [clientFilters]
      · cases w <;> cases input <;> cases space <;> cases readClosed <;> cases broken <;>
          simp [clientFilters, Status.ended]

/-! ## Results -/

section

variable {h : Host Kq} {listenerFd : Int} {memory : Memory} {ts : List HostTurn}

/-- **The filters are exact.** In every run of the server over kqueue the listener has a filter for
reading, every client in use has one for reading that is enabled and one for writing that is enabled
as its connection calls for, and no other descriptor has a filter; and the server is what it would be
if only its own table said what is registered. -/
theorem kqueue_filters_exact (hstart : Host.start kqueue listenerFd memory = some h)
    (hposs : (Server.start listenerFd).Possible (ts.map (HostTurn.plain kqueue))) :
    (h.turns kqueue ts).server = (Server.start listenerFd).turns (ts.map (HostTurn.plain kqueue))
      ∧ (h.turns kqueue ts).kernel listenerFd = { read := some true, write := none }
      ∧ (∀ fd, fd ≠ listenerFd →
          (∀ pos, ((h.turns kqueue ts).server.clients pos).used = true →
            ((h.turns kqueue ts).server.clients pos).fd ≠ fd) →
          (h.turns kqueue ts).kernel fd = { read := none, write := none })
      ∧ ∀ pos, ((h.turns kqueue ts).server.clients pos).used = true →
          ∃ wantWrite, (h.turns kqueue ts).kernel ((h.turns kqueue ts).server.clients pos).fd
              = { read := some true, write := some wantWrite }
            ∧ ((h.turns kqueue ts).ended pos = false →
                wantWrite = ((h.turns kqueue ts).server.clients pos).conn.wantsWrite) := by
  obtain ⟨hlinked, hserver, hlistener⟩ := Host.run_linked kqueue_exact hstart hposs
  have hrep := hlinked.kernel
  rw [hlistener] at hrep
  refine ⟨hserver, hrep.listener, fun fd hfd hfree => ?_, fun pos hused => ?_⟩
  · have hnone : (h.turns kqueue ts).server.io fd = none :=
      hlinked.registered.io_none ⟨by rwa [hlistener], hfree⟩
    rw [hrep.at hfd, hnone]
    rfl
  · have hne := hlinked.registered.listener pos hused
    rw [hlistener] at hne
    obtain ⟨w, hw⟩ := (hlinked.registered.some_iff _).mpr ⟨pos, hused, rfl⟩
    refine ⟨w, by rw [hrep.at hne, hw]; rfl, fun hlive => ?_⟩
    rw [hlinked.armed pos hused hlive] at hw
    exact (Option.some.inj hw).symm

theorem kqueue_filters_exact_quiet : ∃ h, Host.start kqueue 3 ⟨true, true⟩ = some h
    ∧ (h.turns kqueue quietHostTurns).kernel 3 = { read := some true, write := none } :=
  ⟨_, rfl, (@kqueue_filters_exact _ 3 ⟨true, true⟩ quietHostTurns rfl
    (by rw [quietHostTurns_plain rfl]; exact quietTurns_possible)).2.1⟩

/-- **A server that sleeps in `kevent` has nothing to do** (`sleeping_done`). -/
theorem kqueue_sleeping_done (hstart : Host.start kqueue listenerFd memory = some h)
    (hposs : (Server.start listenerFd).Possible (ts.map (HostTurn.plain kqueue)))
    {status : Int → Status} (hsleep : (h.turns kqueue ts).Sleeps kqueue status)
    (hended : ∀ pos, (h.turns kqueue ts).ended pos = true →
      (status ((h.turns kqueue ts).server.clients pos).fd).ended = true)
    {arrived : Int → List UInt8}
    (harrived : ∀ fd log, Sessions.logAfter
      ((Server.start listenerFd).turnsTraffic (ts.map (HostTurn.plain kqueue))) fd = some log →
        readBytes log ≠ arrived fd → (status fd).input = true) :
    (status listenerFd).input = false
      ∧ ∀ pos, ((h.turns kqueue ts).server.clients pos).used = true →
        ∃ log, Sessions.logAfter ((Server.start listenerFd).turnsTraffic
            (ts.map (HostTurn.plain kqueue))) ((h.turns kqueue ts).server.clients pos).fd = some log
          ∧ readBytes log = arrived ((h.turns kqueue ts).server.clients pos).fd
          ∧ ((status ((h.turns kqueue ts).server.clients pos).fd).space = true →
              writtenBytes log = (exec (log.map SocketCall.op)).total
                ∧ ((exec (log.map SocketCall.op)).AllOk → writtenBytes log
                    = (outcome (arrived ((h.turns kqueue ts).server.clients pos).fd)).2)) :=
  sleeping_done kqueue_exact hstart hposs hsleep hended harrived

end

theorem kqueue_sleeping_done_quiet : ∃ log,
    Sessions.logAfter ((Server.start 3).turnsTraffic quietTurns) 7 = some log
      ∧ readBytes log = clientPreface := by
  have hplain : quietHostTurns.map (HostTurn.plain kqueue) = quietTurns := quietHostTurns_plain rfl
  have hdone := @kqueue_sleeping_done _ 3 ⟨true, true⟩ quietHostTurns rfl
    (by rw [hplain]; exact quietTurns_possible) (fun _ => idleStatus)
    (@quiet_sleeps _ _ _ _ kqueue_exact ⟨true, true⟩ rfl rfl)
    (by decide +kernel) quietArrived
    (by rw [hplain]; exact fun fd log hlog hne => absurd (quietTurns_arrived fd log hlog) hne)
  rw [hplain] at hdone
  obtain ⟨log, hlog, hread, -⟩ := hdone.2 0 (by decide +kernel)
  exact ⟨log, hlog, hread⟩

end C11Omo.Io
