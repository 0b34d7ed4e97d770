import C11Omo.Http2.Server

set_option autoImplicit false

/-! # The io_uring backend

`src/io_uring.c`: the table of file descriptors, the submission and the completion queue, and the
completions that were saved while a removal waited for its own. The kernel is not part of the
program. What it does is an argument: which requests it takes when `io_uring_enter` is called and
what the call returns (`Entered`), and which requests in flight it completes before the program
looks at the completion queue again (`Post`).

Each ring is the list of its entries from head to tail; to store a new head is to drop the entries
before it. The fields marked as ghosts are not in the source and nothing depends on them: all
completions ever posted, the calls of `io_uring_enter`, and how often a descriptor has been
registered, with that number on every request and completion.
-/

namespace C11Omo.IoUring

open C11Omo.Http2

/-! ## Constants -/

/-- `H2_URING_ENTRIES`. -/
abbrev uringEntries : Nat := 256

/-- `H2_URING_MAX_FDS`. -/
abbrev uringMaxFds : Nat := 4096

instance : NeZero uringMaxFds := ⟨by decide⟩

/-- `H2_URING_CANCEL_FLAG`. -/
def uringCancelFlag : Nat := 0x8000000000000000

/-- `H2_URING_TIMEOUT_FLAG`. -/
def uringTimeoutFlag : Nat := 0x4000000000000000

/-- `H2_URING_FD_MASK`. -/
def uringFdMask : Nat := 0x00000000ffffffff

/-- `H2_URING_GENERATION_MASK`. -/
def uringGenerationMask : Nat := 0x3fffffff

/-- `H2_URING_SAVED_CQES`. -/
abbrev uringSavedCqes : Nat := uringEntries

def pollIn : Nat := 0x1
def pollOut : Nat := 0x4
def pollErr : Nat := 0x8
def pollHup : Nat := 0x10
def pollRdHup : Nat := 0x2000

/-- The errors that the program tells apart. -/
inductive Errno
  | eintr
  | etime
  | etimedout
  | eagain
  | other
  deriving DecidableEq

def enoent : Int := 2

/-! ## user_data -/

/-- `h2_uring_poll_user_data`. -/
def pollUserData (fd : Int) (generation : Nat) : Nat :=
  (generation &&& uringGenerationMask) <<< 32 ||| toUInt32 fd

/-- `h2_uring_cancel_user_data`. -/
def cancelUserData (fd : Int) (generation : Nat) : Nat :=
  uringCancelFlag ||| pollUserData fd generation

/-- `h2_uring_is_cancel_user_data`. -/
def isCancelUserData (userData : Nat) : Bool := userData &&& uringCancelFlag ≠ 0

/-- `h2_uring_is_timeout_user_data`. -/
def isTimeoutUserData (userData : Nat) : Bool := userData &&& uringTimeoutFlag ≠ 0

/-- `h2_uring_user_data_fd`. -/
def userDataFd (userData : Nat) : Int := toInt32 (userData &&& uringFdMask)

/-- `h2_uring_user_data_generation`. -/
def userDataGeneration (userData : Nat) : Nat := (userData &&& 0x3fffffff00000000) >>> 32

/-! ## State -/

/-- `h2_uring_fd_state`. The ghost counts the registrations of the descriptor. -/
structure FdState where
  used : Bool
  active : Bool
  events : Nat
  generation : Nat
  registrations : Nat
  deriving DecidableEq

inductive Opcode
  | pollAdd
  | pollRemove
  | timeout
  deriving DecidableEq

/-- `struct io_uring_sqe`, as far as it is filled in; for a timeout `addr` is the address of
`state->timeout`, which is left out. The ghost is the registration the request was made for. -/
structure Sqe where
  opcode : Opcode
  fd : Int
  pollEvents : Nat
  addr : Nat
  userData : Nat
  registration : Nat
  deriving DecidableEq

/-- `struct io_uring_cqe` and `h2_uring_saved_cqe`, with the ghost of the request. -/
structure Cqe where
  userData : Nat
  res : Int
  flags : Nat
  registration : Nat
  deriving DecidableEq

/-- The arguments of a call of `io_uring_enter`. -/
structure Enter where
  toSubmit : Nat
  minComplete : Nat
  deriving DecidableEq

/-- `h2_uring_state`, with what the kernel holds: `sq` and `cq` are the entries of the two rings,
`inFlight` the requests that the kernel has taken and not yet completed. `posted` and `entered`
are ghosts. -/
structure Uring where
  sq : List Sqe
  inFlight : List Sqe
  cq : List Cqe
  pendingCqes : List Cqe
  fds : Fin uringMaxFds → FdState
  posted : List Cqe
  entered : List Enter

namespace Uring

/-- The state after `h2_io_init`. -/
def init : Uring where
  sq := []
  inFlight := []
  cq := []
  pendingCqes := []
  fds := fun _ =>
    { used := false, active := false, events := 0, generation := 0, registrations := 0 }
  posted := []
  entered := []

def setSlot (u : Uring) (i : Fin uringMaxFds) (fd : FdState) : Uring :=
  { u with fds := Function.update u.fds i fd }

end Uring

/-- The index of a descriptor that is in range. -/
def fdSlot (fd : Int) : Option (Fin uringMaxFds) :=
  if h : 0 ≤ fd ∧ fd < uringMaxFds then some ⟨fd.toNat, by omega⟩ else none

/-! ## The kernel -/

/-- The kernel completes a request in flight. -/
structure Post where
  pos : Nat
  res : Int
  flags : Nat

/-- What one `io_uring_enter` does: how many requests the kernel takes from the submission queue,
and what the call returns. -/
structure Entered where
  consumed : Nat
  result : Except Errno Nat

namespace Uring

def post (u : Uring) (p : Post) : Uring :=
  match u.inFlight[p.pos]? with
  | none => u
  | some sqe =>
      let cqe : Cqe :=
        { userData := sqe.userData
          res := p.res
          flags := p.flags
          registration := sqe.registration }
      { u with
        inFlight := u.inFlight.eraseIdx p.pos
        cq := u.cq ++ [cqe]
        posted := u.posted ++ [cqe] }

def posts (u : Uring) (ps : List Post) : Uring := ps.foldl post u

/-- `h2_uring_enter`: the kernel takes at most `to_submit` requests, oldest first. -/
def enter (u : Uring) (toSubmit minComplete : Nat) (answer : Entered) :
    Except Errno Nat × Uring :=
  let taken := min answer.consumed toSubmit
  (answer.result,
    { u with
      sq := u.sq.drop taken
      inFlight := u.inFlight ++ u.sq.take taken
      entered := u.entered ++ [{ toSubmit, minComplete }] })

/-! ## Registration -/

/-- `h2_uring_set_fd`. -/
def setFd (u : Uring) (fd : Int) (used : Bool) (events : Nat) : Int × Uring :=
  match fdSlot fd with
  | none => (-1, u)
  | some i =>
      let state := u.fds i
      let state :=
        if used && !state.used then
          { state with
            generation := (state.generation + 1) &&& uringGenerationMask
            registrations := state.registrations + 1 }
        else state
      let state := { state with used, events }
      let state := if !used then { state with active := false } else state
      (0, u.setSlot i state)

/-- `h2_io_add_listener`. -/
def addListener (u : Uring) (fd : Int) : Int × Uring :=
  u.setFd fd true (pollIn ||| pollErr ||| pollHup)

/-- `h2_io_add_connection`. -/
def addConnection (u : Uring) (fd : Int) : Int × Uring :=
  u.setFd fd true (pollIn ||| pollRdHup ||| pollErr ||| pollHup)

/-- `h2_io_mod_connection`. -/
def modConnection (u : Uring) (fd : Int) (wantWrite : Bool) : Int × Uring :=
  let events := pollIn ||| pollRdHup ||| pollErr ||| pollHup
  let events := if wantWrite then events ||| pollOut else events
  u.setFd fd true events

/-- `h2_uring_get_sqe`, and the request that its caller writes to the entry. -/
def getSqe (u : Uring) (sqe : Sqe) : Option Uring :=
  if u.sq.length ≥ uringEntries then none else some { u with sq := u.sq ++ [sqe] }

/-! ## Completions -/

/-- The event of a poll that has completed for `fd`. -/
def pollEvent (fd : Int) (result : Int) : IoEvent where
  fd := fd
  readable := result > 0 && toUInt32 result &&& pollIn ≠ 0
  writable := result > 0 && toUInt32 result &&& pollOut ≠ 0
  closed := result < 0 || (result > 0 && toUInt32 result &&& (pollErr ||| pollHup ||| pollRdHup) ≠ 0)

/-- `h2_uring_finish_cqe`; `*out_count` is the length of `events`. -/
def finishCqe (u : Uring) (cqe : Cqe) (events : List IoEvent) (eventCap : Nat) :
    List IoEvent × Uring :=
  if isTimeoutUserData cqe.userData then (events, u)
  else
    match fdSlot (userDataFd cqe.userData) with
    | none => (events, u)
    | some i =>
        if isCancelUserData cqe.userData then
          if userDataGeneration cqe.userData = (u.fds i).generation then
            (events, u.setSlot i { u.fds i with active := false })
          else (events, u)
        else if userDataGeneration cqe.userData ≠ (u.fds i).generation then (events, u)
        else if (u.fds i).used ∧ events.length < eventCap then
          (events ++ [pollEvent (userDataFd cqe.userData) cqe.res],
            u.setSlot i { u.fds i with active := false })
        else (events, u.setSlot i { u.fds i with active := false })

/-- `h2_uring_save_cqe`. -/
def saveCqe (u : Uring) (cqe : Cqe) : Option Uring :=
  if u.pendingCqes.length ≥ uringSavedCqes then none
  else some { u with pendingCqes := u.pendingCqes ++ [cqe] }

/-- The loop of `h2_uring_finish_saved_cqes` from `pos` on; `kept` is what it has kept so far. -/
def finishSavedLoop (eventCap : Nat) : List Cqe → List Cqe → List IoEvent → Uring →
    List IoEvent × Uring
  | [], kept, events, u => (events, { u with pendingCqes := kept })
  | cqe :: rest, kept, events, u =>
      if events.length < eventCap then
        let (events, u) := u.finishCqe cqe events eventCap
        finishSavedLoop eventCap rest kept events u
      else finishSavedLoop eventCap rest (kept ++ [cqe]) events u

/-- `h2_uring_finish_saved_cqes`. -/
def finishSavedCqes (u : Uring) (events : List IoEvent) (eventCap : Nat) : List IoEvent × Uring :=
  finishSavedLoop eventCap u.pendingCqes [] events u

/-! ## Removal -/

/-- One round of the loop in `h2_uring_drain_until_cancel`: what the kernel posts before the queue
is tested for being empty, what `io_uring_enter` returns if it is called, and what the kernel posts
before `cq_tail` is read. -/
structure Round where
  posted : List Post
  answer : Entered
  later : List Post

/-- The inner loop of `h2_uring_drain_until_cancel`, over the completions from `head` to `tail`: the
value that the function returns, if it does. -/
def drainRing (fd : Fin uringMaxFds) : List Cqe → Uring → Option Int × Uring
  | [], u => (none, { u with cq := [] })
  | cqe :: rest, u =>
      if cqe.userData = cancelUserData fd (u.fds fd).generation then
        (some (if cqe.res = -enoent ∨ cqe.res ≥ 0 then 0 else -1), { u with cq := rest })
      else
        match u.saveCqe cqe with
        | none => (some (-1), u)
        | some u => drainRing fd rest u

/-- `h2_uring_drain_until_cancel`, if it returns within the rounds. -/
def drainUntilCancel (fd : Fin uringMaxFds) : List Round → Uring → Option (Int × Uring)
  | [], _ => none
  | round :: rounds, u =>
      let u := u.posts round.posted
      let (entered, u) := if u.cq = [] then u.enter 0 1 round.answer else (.ok 0, u)
      match entered with
      | .error .eintr => drainUntilCancel fd rounds u
      | .error _ => some (-1, u)
      | .ok _ =>
          let u := u.posts round.later
          match drainRing fd u.cq u with
          | (some ret, u) => some (ret, u)
          | (none, u) => drainUntilCancel fd rounds u

/-- `h2_uring_cancel_active_poll`. -/
def cancelActivePoll (u : Uring) (i : Fin uringMaxFds) (answer : Entered) (rounds : List Round) :
    Option (Int × Uring) :=
  if (u.fds i).active = false then some (0, u)
  else
    match u.getSqe
      { opcode := .pollRemove
        fd := 0
        pollEvents := 0
        addr := pollUserData i (u.fds i).generation
        userData := cancelUserData i (u.fds i).generation
        registration := (u.fds i).registrations } with
    | none => some (-1, u)
    | some u =>
        match u.enter 1 0 answer with
        | (.error _, u) => some (-1, u)
        | (.ok _, u) => drainUntilCancel i rounds u

/-- `h2_io_remove`, if it returns. -/
def remove (u : Uring) (fd : Int) (answer : Entered) (rounds : List Round) : Option (Int × Uring) :=
  match fdSlot fd with
  | none => some (-1, u)
  | some i =>
      if (u.fds i).used = false then some (0, u)
      else
        match u.cancelActivePoll i answer rounds with
        | none => none
        | some (ret, u) =>
            if ret ≠ 0 then some (-1, u)
            else some (0, u.setSlot i { u.fds i with active := false, used := false, events := 0 })

/-! ## Waiting -/

/-- The loop of `h2_uring_submit_missing`; `submitted` counts the requests it has queued. -/
def submitMissingLoop : List (Fin uringMaxFds) → Nat → Uring → Nat × Uring
  | [], submitted, u => (submitted, u)
  | i :: rest, submitted, u =>
      if (u.fds i).used = false ∨ (u.fds i).active then submitMissingLoop rest submitted u
      else
        match u.getSqe
          { opcode := .pollAdd
            fd := i
            pollEvents := (u.fds i).events % 65536
            addr := 0
            userData := pollUserData i (u.fds i).generation
            registration := (u.fds i).registrations } with
        | none => (submitted, u)
        | some u =>
            submitMissingLoop rest (submitted + 1) (u.setSlot i { u.fds i with active := true })

/-- `h2_uring_submit_missing`. -/
def submitMissing (u : Uring) (answer : Entered) : Except Errno Nat × Uring :=
  match submitMissingLoop (List.finRange uringMaxFds) 0 u with
  | (0, u) => (.ok 0, u)
  | (submitted, u) => u.enter submitted 0 answer

/-- `h2_uring_submit_timeout_sqe`. -/
def submitTimeoutSqe (u : Uring) (answer : Entered) : Except Errno Nat × Uring :=
  match u.getSqe
    { opcode := .timeout
      fd := 0
      pollEvents := 0
      addr := 0
      userData := uringTimeoutFlag
      registration := 0 } with
  | none => (.error .eagain, u)
  | some u => u.enter 1 1 answer

/-- `h2_uring_wait_for_event`; `extArg` says whether the build has `IORING_ENTER_EXT_ARG`. -/
def waitForEvent (u : Uring) (timeoutMs : Int) (extArg : Bool) (answer : Entered) :
    Except Errno Nat × Uring :=
  if timeoutMs = 0 then (.ok 0, u)
  else if timeoutMs < 0 then u.enter 0 1 answer
  else if extArg then u.enter 0 1 answer
  else u.submitTimeoutSqe answer

/-- The loop of `h2_io_wait` over the completions from `head` to `tail`. -/
def finishRing (eventCap : Nat) : List Cqe → List IoEvent → Uring → List IoEvent × Uring
  | [], events, u => (events, { u with cq := [] })
  | cqe :: rest, events, u =>
      if events.length < eventCap then
        let (events, u) := u.finishCqe cqe events eventCap
        finishRing eventCap rest events u
      else (events, { u with cq := cqe :: rest })

/-- What the kernel does during one `h2_io_wait`: the answers to `io_uring_enter` in
`h2_uring_submit_missing` and in `h2_uring_wait_for_event`, what it posts before the queue is
tested for being empty, and what it posts before `cq_tail` is read. -/
structure Waiting where
  submit : Entered
  posted : List Post
  wait : Entered
  later : List Post

/-- The part of `h2_io_wait` between the submission and the delivery. -/
def waits (u : Uring) (timeoutMs : Int) (extArg : Bool) (w : Waiting) :
    Except Errno Nat × Uring :=
  let u := u.posts w.posted
  if u.cq = [] then u.waitForEvent timeoutMs extArg w.wait else (.ok 0, u)

/-- The part of `h2_io_wait` that collects the events. -/
def deliver (u : Uring) (eventCap : Nat) (later : List Post) : List IoEvent × Uring :=
  let (events, u) := u.finishSavedCqes [] eventCap
  let u := u.posts later
  finishRing eventCap u.cq events u

/-- `h2_io_wait`: the events, or `none` for `-1`. -/
def wait (u : Uring) (eventCap : Nat) (timeoutMs : Int) (extArg : Bool) (w : Waiting) :
    Option (List IoEvent) × Uring :=
  if eventCap = 0 then (some [], u)
  else
    match u.submitMissing w.submit with
    | (.error _, u) => (none, u)
    | (.ok _, u) =>
        match u.waits timeoutMs extArg w with
        | (.error .eintr, u) => (some [], u)
        | (.error .etime, u) => (some [], u)
        | (.error .etimedout, u) => (some [], u)
        | (.error _, u) => (none, u)
        | (.ok _, u) =>
            let (events, u) := u.deliver eventCap w.later
            (some events, u)

end Uring

end C11Omo.IoUring
