import C11Omo.Lib.RingBuffer
import C11Omo.IoUring.Ring

set_option autoImplicit false

/-! # The rings in memory

`Ring.lean` has the submission queue, the completion queue and the saved completions as lists. Here
they are what `src/io_uring.c` has: two rings in memory that is shared with the kernel, with counters
of 32 bits that wrap around, the array of indices in front of the submission entries, and an array of
saved completions that is packed in place. What does not touch them is taken from `Ring.lean`
(`Memory.view` is the state with lists).

The kernel does not post to a completion ring that is full: it keeps the completion, which for the
program is as if the request were still in flight.
-/

namespace C11Omo.IoUring

open C11Omo.Http2 C11Omo.Lib

/-! ## State -/

/-- The order of the submission ring: it has `H2_URING_ENTRIES` cells. -/
abbrev sqOrder : Nat := 8

/-- The order of the completion ring, which the kernel makes twice as long. -/
abbrev cqOrder : Nat := 9

/-- `h2_uring_state`, with the shared memory that it points to and what the kernel holds. -/
structure Memory where
  sqHead : UInt32
  sqTail : UInt32
  sqArray : UInt32 → UInt32
  sqes : UInt32 → Sqe
  cqHead : UInt32
  cqTail : UInt32
  cqes : UInt32 → Cqe
  pendingCqes : Nat → Cqe
  pendingCqeCount : Nat
  fds : Fin uringMaxFds → FdState
  inFlight : List Sqe
  posted : List Cqe
  entered : List Enter

namespace Memory

/-- `*state->sq_ring_mask`. -/
def sqRingMask : UInt32 := RingBuffer.mask sqOrder

/-- `*state->sq_ring_entries`. -/
def sqRingEntries : UInt32 := 256

/-- `*state->cq_ring_mask`. -/
def cqRingMask : UInt32 := RingBuffer.mask cqOrder

/-- The kernel reads the submission ring through the array of indices. -/
def sqRing (m : Memory) : RingBuffer Sqe :=
  { head := m.sqHead, tail := m.sqTail, cells := fun i => m.sqes (m.sqArray i) }

def cqRing (m : Memory) : RingBuffer Cqe :=
  { head := m.cqHead, tail := m.cqTail, cells := m.cqes }

/-- The state with lists. -/
def view (m : Memory) : Uring where
  sq := m.sqRing.toList sqOrder
  inFlight := m.inFlight
  cq := m.cqRing.toList cqOrder
  pendingCqes := (List.range m.pendingCqeCount).map m.pendingCqes
  fds := m.fds
  posted := m.posted
  entered := m.entered

/-- The state after `h2_io_init`: the rings are empty, wherever their counters start. -/
def init (sq cq : UInt32) (sqe : Sqe) (cqe : Cqe) : Memory where
  sqHead := sq
  sqTail := sq
  sqArray := fun _ => 0
  sqes := fun _ => sqe
  cqHead := cq
  cqTail := cq
  cqes := fun _ => cqe
  pendingCqes := fun _ => cqe
  pendingCqeCount := 0
  fds := Uring.init.fds
  inFlight := []
  posted := []
  entered := []

def setSlot (m : Memory) (i : Fin uringMaxFds) (fd : FdState) : Memory :=
  { m with fds := Function.update m.fds i fd }

/-! ## The kernel -/

/-- The kernel completes a request in flight, if there is room in the completion ring. -/
def post (m : Memory) (p : Post) : Memory :=
  if m.cqTail - m.cqHead ≥ 512 then m
  else
    match m.inFlight[p.pos]? with
    | none => m
    | some sqe =>
        let cqe : Cqe :=
          { userData := sqe.userData
            res := p.res
            flags := p.flags
            registration := sqe.registration }
        { m with
          inFlight := m.inFlight.eraseIdx p.pos
          cqes := Function.update m.cqes (m.cqTail &&& cqRingMask) cqe
          cqTail := m.cqTail + 1
          posted := m.posted ++ [cqe] }

def posts (m : Memory) (ps : List Post) : Memory := ps.foldl post m

/-- `h2_uring_enter`: the kernel takes at most `to_submit` requests of those that are there. -/
def enter (m : Memory) (toSubmit minComplete : Nat) (answer : Entered) :
    Except Errno Nat × Memory :=
  let taken := min (min answer.consumed toSubmit) (m.sqTail - m.sqHead).toNat
  (answer.result,
    { m with
      sqHead := m.sqHead + UInt32.ofNat taken
      inFlight := m.inFlight ++ (m.sqRing.toList sqOrder).take taken
      entered := m.entered ++ [{ toSubmit, minComplete }] })

/-! ## Registration and submission -/

/-- `h2_uring_set_fd`, which touches nothing but the table of descriptors. -/
def setFd (m : Memory) (fd : Int) (used : Bool) (events : Nat) : Int × Memory :=
  let (ret, u) := m.view.setFd fd used events
  (ret, { m with fds := u.fds })

/-- `h2_io_add_listener`. -/
def addListener (m : Memory) (fd : Int) : Int × Memory :=
  m.setFd fd true (pollIn ||| pollErr ||| pollHup)

/-- `h2_io_add_connection`. -/
def addConnection (m : Memory) (fd : Int) : Int × Memory :=
  m.setFd fd true (pollIn ||| pollRdHup ||| pollErr ||| pollHup)

/-- `h2_io_mod_connection`. -/
def modConnection (m : Memory) (fd : Int) (wantWrite : Bool) : Int × Memory :=
  let events := pollIn ||| pollRdHup ||| pollErr ||| pollHup
  let events := if wantWrite then events ||| pollOut else events
  m.setFd fd true events

/-- `h2_uring_get_sqe`, and the request that its caller writes to the entry. -/
def getSqe (m : Memory) (sqe : Sqe) : Option Memory :=
  let head := m.sqHead
  let tail := m.sqTail
  if tail - head ≥ sqRingEntries then none
  else
    let index := tail &&& sqRingMask
    some { m with
      sqArray := Function.update m.sqArray index index
      sqTail := tail + 1
      sqes := Function.update m.sqes index sqe }

/-! ## Completions -/

/-- `h2_uring_finish_cqe`, which touches nothing but the table of descriptors. -/
def finishCqe (m : Memory) (cqe : Cqe) (events : List IoEvent) (eventCap : Nat) :
    List IoEvent × Memory :=
  let (events, u) := m.view.finishCqe cqe events eventCap
  (events, { m with fds := u.fds })

/-- `h2_uring_save_cqe`. -/
def saveCqe (m : Memory) (cqe : Cqe) : Option Memory :=
  if m.pendingCqeCount ≥ uringSavedCqes then none
  else
    some { m with
      pendingCqes := Function.update m.pendingCqes m.pendingCqeCount cqe
      pendingCqeCount := m.pendingCqeCount + 1 }

/-- The loop of `h2_uring_finish_saved_cqes` from `pos` on, with `left` entries to go. -/
def finishSavedLoop (eventCap : Nat) : (left pos keep : Nat) → List IoEvent → Memory →
    List IoEvent × Memory
  | 0, _, keep, events, m => (events, { m with pendingCqeCount := keep })
  | left + 1, pos, keep, events, m =>
      if events.length < eventCap then
        let (events, m) := m.finishCqe (m.pendingCqes pos) events eventCap
        finishSavedLoop eventCap left (pos + 1) keep events m
      else
        finishSavedLoop eventCap left (pos + 1) (keep + 1) events
          { m with pendingCqes := Function.update m.pendingCqes keep (m.pendingCqes pos) }

/-- `h2_uring_finish_saved_cqes`. -/
def finishSavedCqes (m : Memory) (events : List IoEvent) (eventCap : Nat) : List IoEvent × Memory :=
  finishSavedLoop eventCap m.pendingCqeCount 0 0 events m

/-! ## Removal -/

/-- The inner loop of `h2_uring_drain_until_cancel` from `head` on, with `left` entries before the
tail: the value that the function returns, if it does. -/
def drainRing (fd : Fin uringMaxFds) : (left : Nat) → (head : UInt32) → Memory → Option Int × Memory
  | 0, head, m => (none, { m with cqHead := head })
  | left + 1, head, m =>
      let cqe := m.cqes (head &&& cqRingMask)
      if cqe.userData = cancelUserData fd (m.fds fd).generation then
        (some (if cqe.res = -enoent ∨ cqe.res ≥ 0 then 0 else -1), { m with cqHead := head + 1 })
      else
        match m.saveCqe cqe with
        | none => (some (-1), m)
        | some m => drainRing fd left (head + 1) m

/-- `h2_uring_drain_until_cancel`, if it returns within the rounds. -/
def drainUntilCancel (fd : Fin uringMaxFds) : List Uring.Round → Memory → Option (Int × Memory)
  | [], _ => none
  | round :: rounds, m =>
      let m := m.posts round.posted
      let (entered, m) := if m.cqHead = m.cqTail then m.enter 0 1 round.answer else (.ok 0, m)
      match entered with
      | .error .eintr => drainUntilCancel fd rounds m
      | .error _ => some (-1, m)
      | .ok _ =>
          let m := m.posts round.later
          match drainRing fd (m.cqTail - m.cqHead).toNat m.cqHead m with
          | (some ret, m) => some (ret, m)
          | (none, m) => drainUntilCancel fd rounds m

/-- `h2_uring_cancel_active_poll`. -/
def cancelActivePoll (m : Memory) (i : Fin uringMaxFds) (answer : Entered)
    (rounds : List Uring.Round) : Option (Int × Memory) :=
  if (m.fds i).active = false then some (0, m)
  else
    match m.getSqe
      { opcode := .pollRemove
        fd := 0
        pollEvents := 0
        addr := pollUserData i (m.fds i).generation
        userData := cancelUserData i (m.fds i).generation
        registration := (m.fds i).registrations } with
    | none => some (-1, m)
    | some m =>
        match m.enter 1 0 answer with
        | (.error _, m) => some (-1, m)
        | (.ok _, m) => drainUntilCancel i rounds m

/-- `h2_io_remove`, if it returns. -/
def remove (m : Memory) (fd : Int) (answer : Entered) (rounds : List Uring.Round) :
    Option (Int × Memory) :=
  match fdSlot fd with
  | none => some (-1, m)
  | some i =>
      if (m.fds i).used = false then some (0, m)
      else
        match m.cancelActivePoll i answer rounds with
        | none => none
        | some (ret, m) =>
            if ret ≠ 0 then some (-1, m)
            else some (0, m.setSlot i { m.fds i with active := false, used := false, events := 0 })

/-! ## Waiting -/

/-- The loop of `h2_uring_submit_missing`; `submitted` counts the requests it has queued. -/
def submitMissingLoop : List (Fin uringMaxFds) → Nat → Memory → Nat × Memory
  | [], submitted, m => (submitted, m)
  | i :: rest, submitted, m =>
      if (m.fds i).used = false ∨ (m.fds i).active then submitMissingLoop rest submitted m
      else
        match m.getSqe
          { opcode := .pollAdd
            fd := i
            pollEvents := (m.fds i).events % 65536
            addr := 0
            userData := pollUserData i (m.fds i).generation
            registration := (m.fds i).registrations } with
        | none => (submitted, m)
        | some m =>
            submitMissingLoop rest (submitted + 1) (m.setSlot i { m.fds i with active := true })

/-- `h2_uring_submit_missing`. -/
def submitMissing (m : Memory) (answer : Entered) : Except Errno Nat × Memory :=
  match submitMissingLoop (List.finRange uringMaxFds) 0 m with
  | (0, m) => (.ok 0, m)
  | (submitted, m) => m.enter submitted 0 answer

/-- `h2_uring_submit_timeout_sqe`. -/
def submitTimeoutSqe (m : Memory) (answer : Entered) : Except Errno Nat × Memory :=
  match m.getSqe
    { opcode := .timeout
      fd := 0
      pollEvents := 0
      addr := 0
      userData := uringTimeoutFlag
      registration := 0 } with
  | none => (.error .eagain, m)
  | some m => m.enter 1 1 answer

/-- `h2_uring_wait_for_event`. -/
def waitForEvent (m : Memory) (timeoutMs : Int) (extArg : Bool) (answer : Entered) :
    Except Errno Nat × Memory :=
  if timeoutMs = 0 then (.ok 0, m)
  else if timeoutMs < 0 then m.enter 0 1 answer
  else if extArg then m.enter 0 1 answer
  else m.submitTimeoutSqe answer

/-- The loop of `h2_io_wait` from `head` on, with `left` entries before the tail. -/
def finishRing (eventCap : Nat) : (left : Nat) → (head : UInt32) → List IoEvent → Memory →
    List IoEvent × Memory
  | 0, head, events, m => (events, { m with cqHead := head })
  | left + 1, head, events, m =>
      if events.length < eventCap then
        let (events, m) := m.finishCqe (m.cqes (head &&& cqRingMask)) events eventCap
        finishRing eventCap left (head + 1) events m
      else (events, { m with cqHead := head })

/-- The part of `h2_io_wait` between the submission and the delivery. -/
def waits (m : Memory) (timeoutMs : Int) (extArg : Bool) (w : Uring.Waiting) :
    Except Errno Nat × Memory :=
  let m := m.posts w.posted
  if m.cqHead = m.cqTail then m.waitForEvent timeoutMs extArg w.wait else (.ok 0, m)

/-- The part of `h2_io_wait` that collects the events. -/
def deliver (m : Memory) (eventCap : Nat) (later : List Post) : List IoEvent × Memory :=
  let (events, m) := m.finishSavedCqes [] eventCap
  let m := m.posts later
  finishRing eventCap (m.cqTail - m.cqHead).toNat m.cqHead events m

/-- `h2_io_wait`: the events, or `none` for `-1`. -/
def wait (m : Memory) (eventCap : Nat) (timeoutMs : Int) (extArg : Bool) (w : Uring.Waiting) :
    Option (List IoEvent) × Memory :=
  if eventCap = 0 then (some [], m)
  else
    match m.submitMissing w.submit with
    | (.error _, m) => (none, m)
    | (.ok _, m) =>
        match m.waits timeoutMs extArg w with
        | (.error .eintr, m) => (some [], m)
        | (.error .etime, m) => (some [], m)
        | (.error .etimedout, m) => (some [], m)
        | (.error _, m) => (none, m)
        | (.ok _, m) =>
            let (events, m) := m.deliver eventCap w.later
            (some events, m)

end Memory

end C11Omo.IoUring
