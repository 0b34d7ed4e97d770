import C11Omo.IoUring.Polls

set_option autoImplicit false

/-! # Submissions

The program writes requests to the submission queue and tells `io_uring_enter` how many it has
written in this call, not how many there are. So the entries of a submission that fails stay: every
later submission takes as many entries as it has written, the oldest ones, and leaves as many of the
newest (`Past.stranded`). As long as no submission has failed the queue is empty between two calls,
and every descriptor whose flag is set has its poll in the kernel (`no_orphans`).
-/

namespace C11Omo.IoUring

open C11Omo.Http2 C11Omo.Lib

/-- A call of `io_uring_enter` that submits requests, and what the kernel does. -/
structure Submission where
  toSubmit : Nat
  answer : Entered

namespace Submission

def fails (s : Submission) : Bool :=
  match s.answer.result with
  | .error _ => true
  | .ok _ => false

/-- The call fails and takes nothing, or it takes exactly what it was asked to take. -/
def Whole (s : Submission) : Prop := s.answer.consumed = if s.fails then 0 else s.toSubmit

/-- The entries that the call leaves in the queue of those written for it. -/
def strands (s : Submission) : Nat := if s.fails then s.toSubmit else 0

theorem fails_ok {s : Submission} {n : Nat} (h : s.answer.result = .ok n) : s.fails = false := by
  rw [fails, h]

end Submission

namespace Uring

variable {u v : Uring} {i : Fin uringMaxFds} {c : Call}

/-- The number of polls that `h2_uring_submit_missing` queues. -/
def missing (u : Uring) : Nat := (submitMissingLoop (List.finRange uringMaxFds) 0 u).1

/-- The submission of the timeout in `h2_io_wait`, if it comes to that. -/
def timeoutSubmissions (armed : Uring) (timeoutMs : Int) (extArg : Bool) (w : Waiting) :
    List Submission :=
  if (armed.posts w.posted).cq = [] ∧ 0 < timeoutMs ∧ extArg = false
      ∧ armed.sq.length < uringEntries then [{ toSubmit := 1, answer := w.wait }]
  else []

/-- The submissions of a call, in their order. -/
def submissions (u : Uring) : Call → List Submission
  | .remove fd answer _ =>
      match fdSlot fd with
      | none => []
      | some i =>
          if (u.fds i).used ∧ (u.fds i).active ∧ u.sq.length < uringEntries then
            [{ toSubmit := 1, answer }]
          else []
  | .wait eventCap timeoutMs extArg w =>
      if eventCap = 0 then []
      else
        (if u.missing = 0 then [] else [{ toSubmit := u.missing, answer := w.submit }])
          ++ match u.submitMissing w.submit with
            | (.error _, _) => []
            | (.ok _, armed) => armed.timeoutSubmissions timeoutMs extArg w
  | _ => []

/-- Each submission of a call fails and takes nothing, or takes what it was asked to take. -/
def TakesWhole (u : Uring) (c : Call) : Prop := ∀ s ∈ u.submissions c, s.Whole

/-- No submission of a call fails. -/
def Submits (u : Uring) (c : Call) : Prop := ∀ s ∈ u.submissions c, s.fails = false

/-- The entries that a call strands in the submission queue. -/
def strands (u : Uring) (c : Call) : Nat := ((u.submissions c).map Submission.strands).sum

theorem takesWhole_single {s : Submission} (hone : u.submissions c = [s]) :
    u.TakesWhole c ↔ s.Whole := by
  rw [TakesWhole, hone, List.forall_mem_singleton]

theorem submits_single {s : Submission} (hone : u.submissions c = [s]) :
    u.Submits c ↔ s.fails = false := by
  rw [Submits, hone, List.forall_mem_singleton]

/-! ## What is queued -/

/-- The request that `h2_uring_submit_missing` writes for a descriptor. -/
def pollSqe (u : Uring) (i : Fin uringMaxFds) : Sqe where
  opcode := .pollAdd
  fd := i
  pollEvents := (u.fds i).events % 65536
  addr := 0
  userData := pollUserData i (u.fds i).generation
  registration := (u.fds i).registrations

theorem arm_sq (u : Uring) (i : Fin uringMaxFds) : (u.arm i).sq = u.sq ++ [u.pollSqe i] := rfl

theorem arm_same (u : Uring) (i : Fin uringMaxFds) :
    (u.arm i).fds i = { u.fds i with active := true } := by
  show Function.update u.fds i { u.fds i with active := true } i = _
  rw [Function.update_self]

theorem arm_ne (u : Uring) {j : Fin uringMaxFds} (h : j ≠ i) : (u.arm i).fds j = u.fds j := by
  show Function.update u.fds i { u.fds i with active := true } j = _
  rw [Function.update_of_ne h]

/-- Polls are armed one after the other. -/
theorem foldl_arm (u : Uring) (is : List (Fin uringMaxFds)) : is.foldl arm u = { u with
    sq := u.sq ++ is.map u.pollSqe
    fds := fun j => if j ∈ is then { u.fds j with active := true } else u.fds j } := by
  induction is generalizing u with
  | nil => simp
  | cons i is ih =>
      have hpoll : (u.arm i).pollSqe = u.pollSqe := by
        funext j
        by_cases hj : j = i
        · simp [pollSqe, hj, arm_same]
        · simp [pollSqe, arm_ne u hj]
      have hfds : (fun j => if j ∈ is then { (u.arm i).fds j with active := true }
            else (u.arm i).fds j)
          = fun j => if j ∈ i :: is then { u.fds j with active := true } else u.fds j := by
        funext j
        by_cases hj : j = i
        · simp [hj, arm_same]
        · simp [hj, arm_ne u hj]
      rw [List.foldl_cons, ih, hpoll, hfds, arm_sq, List.append_assoc]
      rfl

/-- Arming polls sets flags and clears none. -/
theorem arms_active (h : Relation.ReflTransGen Arms u v) (hactive : (u.fds i).active = true) :
    (v.fds i).active = true := by
  induction h with
  | refl => exact hactive
  | @tail v _ _ hstep ih =>
      obtain ⟨j, -, -, rfl⟩ := hstep
      by_cases hij : i = j
      · rw [hij, arm_same]
      · rw [arm_ne v hij]
        exact ih

/-- An entry is the poll of a descriptor whose flag is set. -/
def Claims (u : Uring) (sqe : Sqe) : Prop :=
  ∃ i : Fin uringMaxFds, sqe.userData = pollUserData i (u.fds i).generation
    ∧ (u.fds i).active = true

theorem Claims.arms {sqe : Sqe} (hclaims : u.Claims sqe) (h : Relation.ReflTransGen Arms u v) :
    v.Claims sqe := by
  obtain ⟨i, hpoll, hactive⟩ := hclaims
  refine ⟨i, ?_, arms_active h hactive⟩
  rw [((armed_frame h).1 i).2.1]
  exact hpoll

/-- **The loop of `h2_uring_submit_missing`** counts the polls that it queues, and sets the flags of
their descriptors. -/
theorem submitMissingLoop_queues (is : List (Fin uringMaxFds)) (submitted : Nat) (u : Uring) :
    ∃ new, (submitMissingLoop is submitted u).2.sq = u.sq ++ new
      ∧ (submitMissingLoop is submitted u).1 = submitted + new.length
      ∧ ∀ sqe ∈ new, (submitMissingLoop is submitted u).2.Claims sqe := by
  induction is generalizing submitted u with
  | nil => exact ⟨[], by simp [submitMissingLoop], rfl, by simp⟩
  | cons i is ih =>
      rw [submitMissingLoop]
      by_cases hskip : (u.fds i).used = false ∨ (u.fds i).active = true
      · rw [if_pos hskip]
        exact ih submitted u
      · rw [if_neg hskip, getSqe]
        -- the loop ends without an error when the submission queue is full
        by_cases hfull : u.sq.length ≥ uringEntries
        · rw [if_pos hfull]
          exact ⟨[], by simp, rfl, by simp⟩
        · rw [if_neg hfull]
          show ∃ new, (submitMissingLoop is (submitted + 1) (u.arm i)).2.sq = u.sq ++ new
            ∧ (submitMissingLoop is (submitted + 1) (u.arm i)).1 = submitted + new.length
            ∧ ∀ sqe ∈ new, (submitMissingLoop is (submitted + 1) (u.arm i)).2.Claims sqe
          obtain ⟨new, hsq, hcount, hclaims⟩ := ih (submitted + 1) (u.arm i)
          refine ⟨u.pollSqe i :: new, ?_, ?_, ?_⟩
          · rw [hsq, arm_sq, List.append_assoc]
            rfl
          · rw [hcount, List.length_cons]
            omega
          · intro sqe hsqe
            rcases List.mem_cons.mp hsqe with rfl | hlater
            · -- the poll that is queued here
              refine Claims.arms ?_ (submitMissingLoop_arms is (submitted + 1) (u.arm i))
              exact ⟨i, by rw [arm_same]; rfl, by rw [arm_same]⟩
            · exact hclaims sqe hlater

/-- **`h2_uring_submit_missing`** and the submission queue: the polls that it queues are `new`, and
if there are any it submits as many entries. -/
theorem submitMissing_queue (u : Uring) (answer : Entered) : ∃ new,
    new.length = u.missing ∧ (∀ sqe ∈ new, (u.submitMissing answer).2.Claims sqe)
      ∧ (u.missing = 0 → (u.submitMissing answer).1 = .ok 0 ∧ (u.submitMissing answer).2.sq = u.sq)
      ∧ (u.missing ≠ 0 → (u.submitMissing answer).1 = answer.result
        ∧ (u.submitMissing answer).2.sq
          = (u.sq ++ new).drop (min answer.consumed u.missing)) := by
  obtain ⟨new, hsq, hcount, hclaims⟩ := submitMissingLoop_queues (List.finRange uringMaxFds) 0 u
  rw [missing]
  unfold submitMissing
  generalize List.finRange uringMaxFds = is at hsq hcount hclaims ⊢
  rcases hloop : submitMissingLoop is 0 u with ⟨submitted, armed⟩
  rw [hloop] at hsq hcount hclaims
  simp only [Nat.zero_add] at hsq hcount hclaims ⊢
  cases submitted with
  | zero =>
      have hnone : new = [] := List.eq_nil_of_length_eq_zero hcount.symm
      refine ⟨new, hcount.symm, hclaims, fun _ => ⟨rfl, ?_⟩, fun hne => absurd rfl hne⟩
      show armed.sq = u.sq
      rw [hsq, hnone, List.append_nil]
  | succ n =>
      refine ⟨new, hcount.symm, hclaims, fun h0 => ?_, fun _ => ⟨rfl, ?_⟩⟩
      · cases h0
      · show armed.sq.drop (min answer.consumed (n + 1)) = _
        rw [hsq]

/-- The descriptors that need a poll are counted. -/
theorem missing_needed {is : List (Fin uringMaxFds)} (hsorted : is.Pairwise (· < ·))
    (hneeds : ∀ i, i ∈ is ↔ u.NeedsPoll i) (hroom : u.sq.length + is.length ≤ uringEntries) :
    u.missing = is.length := by
  rw [missing, submitMissingLoop_needed hsorted hneeds hroom]

/-- With one descriptor to arm there is one poll to queue. -/
theorem missing_one (hused : (u.fds i).used = true) (hactive : (u.fds i).active = false)
    (hothers : ∀ j, j ≠ i → (u.fds j).used = true → (u.fds j).active = true)
    (hroom : u.sq.length < uringEntries) : u.missing = 1 :=
  missing_needed (List.pairwise_singleton _ i) (needsPoll_one hused hactive hothers)
    (by simpa using hroom)

theorem missing_idle (h : ∀ i, (u.fds i).used = true → (u.fds i).active = true) :
    u.missing = 0 := by
  rw [missing, submitMissingLoop_skip fun i _ => h i]

-- the number is a parameter from here on
attribute [irreducible] missing

/-! ## What is stranded -/

/-- What `io_uring_enter` leaves of a queue with the entries that were written for it. -/
theorem strands_left {toSubmit : Nat} {answer : Entered}
    (hwhole : Submission.Whole { toSubmit, answer }) (sq : List Sqe) {new : List Sqe}
    (hnew : new.length = toSubmit) :
    ((sq ++ new).drop (min answer.consumed toSubmit)).length
      = sq.length + Submission.strands { toSubmit, answer } := by
  rw [Submission.Whole] at hwhole
  rw [List.length_drop, List.length_append, hnew, Submission.strands]
  rcases hfails : Submission.fails { toSubmit, answer } with _ | _
  · rw [hfails, if_neg (by simp)] at hwhole
    rw [hwhole, min_self, if_neg (by simp)]
    exact Nat.add_sub_cancel _ _
  · rw [hfails, if_pos rfl] at hwhole
    rw [hwhole, Nat.zero_min, if_pos rfl]
    exact Nat.sub_zero _

theorem submitMissing_strands (u : Uring) (answer : Entered)
    (hwhole : u.missing ≠ 0 → Submission.Whole { toSubmit := u.missing, answer }) :
    (u.submitMissing answer).2.sq.length = u.sq.length
      + ((if u.missing = 0 then [] else [{ toSubmit := u.missing, answer }]).map
          Submission.strands).sum := by
  obtain ⟨new, hlen, -, hnone, hsome⟩ := submitMissing_queue u answer
  by_cases h0 : u.missing = 0
  · rw [(hnone h0).2, if_pos h0]
    rfl
  · rw [(hsome h0).2, if_neg h0, strands_left (hwhole h0) u.sq hlen, List.map_singleton,
      List.sum_singleton]

theorem posts_sq (u : Uring) (ps : List Post) : (u.posts ps).sq = u.sq := by
  obtain ⟨new, inFlight, -, hposts⟩ := posts_eq u ps
  rw [hposts]

theorem waits_strands (armed : Uring) (timeoutMs : Int) (extArg : Bool) (w : Waiting)
    (hwhole : ∀ s ∈ armed.timeoutSubmissions timeoutMs extArg w, s.Whole) :
    (armed.waits timeoutMs extArg w).2.sq.length = armed.sq.length
      + ((armed.timeoutSubmissions timeoutMs extArg w).map Submission.strands).sum := by
  have hsq := posts_sq armed w.posted
  unfold timeoutSubmissions at hwhole ⊢
  rw [waits]
  by_cases hempty : (armed.posts w.posted).cq = []
  · simp only [if_pos hempty]
    -- only the build without the extended argument submits a timeout, and only for a positive one
    by_cases htimeout : 0 < timeoutMs ∧ extArg = false
    · obtain ⟨hpos, rfl⟩ := htimeout
      rw [waitForEvent, if_neg (by omega), if_neg (by omega), if_neg (by simp), submitTimeoutSqe,
        getSqe, hsq]
      by_cases hfull : armed.sq.length ≥ uringEntries
      · rw [if_pos hfull, if_neg fun h => absurd h.2.2.2 (not_lt.mpr hfull), hsq]
        rfl
      · have hroom : armed.sq.length < uringEntries := not_le.mp hfull
        rw [if_pos ⟨hempty, hpos, rfl, hroom⟩] at hwhole
        rw [if_neg hfull, if_pos ⟨hempty, hpos, rfl, hroom⟩]
        exact strands_left (hwhole _ (List.mem_singleton_self _)) armed.sq rfl
    · -- nothing is submitted
      have hother : timeoutMs = 0 ∨ timeoutMs < 0 ∨ extArg = true := by
        rcases hext : extArg with _ | _
        · have hle : ¬ 0 < timeoutMs := fun hpos => htimeout ⟨hpos, hext⟩
          omega
        · exact Or.inr (Or.inr rfl)
      have hsame : ((armed.posts w.posted).waitForEvent timeoutMs extArg w.wait).2.sq = armed.sq := by
        rw [waitForEvent]
        rcases hother with h0 | hneg | hext
        · rw [if_pos h0, hsq]
        · rw [if_neg (by omega), if_pos hneg, enter_zero, hsq]
        · rw [if_pos hext]
          split_ifs
          · exact hsq
          · rw [enter_zero, hsq]
          · rw [enter_zero, hsq]
      rw [hsame, if_neg fun h => htimeout ⟨h.2.1, h.2.2.1⟩]
      rfl
  · simp only [if_neg hempty]
    rw [hsq, if_neg fun h => hempty h.1]
    rfl

theorem deliver_sq (u : Uring) (eventCap : Nat) (later : List Post) :
    (u.deliver eventCap later).2.sq = u.sq := by
  obtain ⟨new, inFlight, -, -, -, pendingCqes, cq, hend⟩ := deliver_eq u eventCap later
  rw [hend]

theorem wait_strands {eventCap : Nat} {timeoutMs : Int} {extArg : Bool} {w : Waiting}
    (hwhole : u.TakesWhole (.wait eventCap timeoutMs extArg w)) :
    (u.wait eventCap timeoutMs extArg w).2.sq.length
      = u.sq.length + u.strands (.wait eventCap timeoutMs extArg w) := by
  by_cases hcap : eventCap = 0
  · rw [wait, if_pos hcap, strands, submissions, if_pos hcap]
    rfl
  · unfold TakesWhole at hwhole
    unfold strands
    rw [submissions, if_neg hcap] at hwhole ⊢
    obtain ⟨armed, harmed⟩ : ∃ armed, armed = (u.submitMissing w.submit).2 := ⟨_, rfl⟩
    -- two submissions: the missing polls, and then the timeout
    have hfirst := submitMissing_strands u w.submit fun h0 => by
      refine hwhole _ (List.mem_append_left _ ?_)
      rw [if_neg h0]
      exact List.mem_singleton_self _
    rw [← harmed] at hfirst
    rw [List.map_append, List.sum_append, ← Nat.add_assoc, ← hfirst]
    rcases hres : u.submitMissing w.submit with ⟨err | n, after⟩
    · rw [hres] at harmed
      obtain rfl : armed = after := harmed
      rw [wait, if_neg hcap, hres]
      rfl
    · rw [hres] at harmed hwhole
      obtain rfl : armed = after := harmed
      have hsecond := waits_strands armed timeoutMs extArg w fun s hs =>
        hwhole s (List.mem_append_right _ hs)
      show _ = _ + ((armed.timeoutSubmissions timeoutMs extArg w).map Submission.strands).sum
      rw [← hsecond]
      have harmed : armed = (u.submitMissing w.submit).2 := by rw [hres]
      rcases wait_outcome u hcap timeoutMs extArg w harmed rfl with
        ⟨⟨err, herr⟩, -⟩ | ⟨-, hend⟩ | ⟨-, hend⟩
      · rw [hres] at herr
        cases herr
      · rcases hend with hend | hend
        · rw [hend]
        · rw [hend]
      · rw [hend, deliver_sq]

theorem remove_strands {fd : Int} {answer : Entered} {rounds : List Round} {ret : Int}
    (hwhole : u.TakesWhole (.remove fd answer rounds))
    (h : u.remove fd answer rounds = some (ret, v)) :
    v.sq.length = u.sq.length + u.strands (.remove fd answer rounds) := by
  unfold TakesWhole at hwhole
  unfold strands
  rw [submissions] at hwhole ⊢
  rcases hslot : fdSlot fd with _ | i
  · rw [remove, hslot] at h
    cases h
    rfl
  · rw [hslot] at hwhole
    simp only at hwhole ⊢
    -- the cancellation is queued and submitted
    have hcancel : (u.fds i).used = true → (u.fds i).active = true → u.sq.length < uringEntries →
        (u.cancelling i answer).sq.length = u.sq.length
          + ((if (u.fds i).used ∧ (u.fds i).active ∧ u.sq.length < uringEntries then
              [{ toSubmit := 1, answer }] else []).map Submission.strands).sum := by
      intro hused hactive hroom
      rw [if_pos ⟨hused, hactive, hroom⟩] at hwhole ⊢
      exact strands_left (hwhole _ (List.mem_singleton_self _)) u.sq rfl
    cases remove_outcome hslot h with
    | unused hused =>
        rw [if_neg fun hcond => by simp [hused] at hcond]
        rfl
    | inactive hused hactive =>
        rw [if_neg fun hcond => by simp [hactive] at hcond]
        rfl
    | noRoom hused hactive hfull =>
        rw [if_neg fun hcond => absurd hcond.2.2 (not_lt.mpr hfull)]
        rfl
    | rejected hused hactive hroom => exact hcancel hused hactive hroom
    | cancelled hused hactive hroom hres hdrain =>
        obtain ⟨_, -, -, hsq, -⟩ := drainUntilCancel_outcome hdrain
        rw [← hcancel hused hactive hroom, ← hsq]
        rfl
    | failed hused hactive hroom hres hstatus hdrain =>
        obtain ⟨_, -, -, hsq, -⟩ := drainUntilCancel_outcome hdrain
        rw [← hcancel hused hactive hroom, ← hsq]

/-- **What a call leaves in the submission queue**: what was there before in number, and the entries
of the submissions that failed. -/
theorem call_strands (hwhole : u.TakesWhole c) (hret : u.call c = some v) :
    v.sq.length = u.sq.length + u.strands c := by
  have hregister : ∀ fd, Registers c fd → v.sq.length = u.sq.length := by
    intro fd hc
    obtain ⟨events, hcall⟩ := hc.call_eq (u := u)
    rw [hret] at hcall
    rcases hslot : fdSlot fd with _ | i
    · rw [hslot] at hcall
      rw [Option.some.inj hcall]
    · rw [hslot] at hcall
      rw [Option.some.inj hcall]
      rfl
  cases c with
  | addListener fd => exact hregister fd (Or.inl rfl)
  | addConnection fd => exact hregister fd (Or.inr (Or.inl rfl))
  | modConnection fd wantWrite => exact hregister fd (Or.inr (Or.inr ⟨wantWrite, rfl⟩))
  | remove fd answer rounds =>
      rw [call, Option.map_eq_some_iff] at hret
      obtain ⟨⟨ret, w⟩, hremove, rfl⟩ := hret
      exact remove_strands hwhole hremove
  | wait eventCap timeoutMs extArg w =>
      cases hret
      exact wait_strands hwhole
  | kernel ps =>
      cases hret
      rw [posts_sq]
      rfl

/-! ## Runs -/

/-- A run from the start: the calls so far, the last one first, each with the state it was made
in, and the state that is reached. -/
inductive Ran (allowed : Uring → Call → Prop) : List (Uring × Call) → Uring → Prop
  | init : Ran allowed [] Uring.init
  | call {past : List (Uring × Call)} {u v : Uring} {c : Call} (h : Ran allowed past u)
      (hallowed : allowed u c) (hret : u.call c = some v) : Ran allowed ((u, c) :: past) v

variable {past : List (Uring × Call)}

theorem Ran.runs {allowed : Uring → Call → Prop} (h : Ran allowed past u) :
    Runs allowed Uring.init u := by
  induction h with
  | init => exact .refl
  | call _ hallowed hret ih => exact ih.call hallowed hret

/-- **The length of the submission queue** is the number of entries that have been stranded. -/
theorem Ran.stranded (h : Ran TakesWhole past u) :
    u.sq.length = (past.map fun p => p.1.strands p.2).sum := by
  induction h with
  | init => rfl
  | @call past u v c _ hwhole hret ih =>
      rw [List.map_cons, List.sum_cons, call_strands hwhole hret, ih]
      exact Nat.add_comm _ _

theorem timeoutSubmissions_pos {armed : Uring} {timeoutMs : Int} {extArg : Bool} {w : Waiting}
    {s : Submission} (hs : s ∈ armed.timeoutSubmissions timeoutMs extArg w) : 0 < s.toSubmit := by
  unfold timeoutSubmissions at hs
  split_ifs at hs
  · rw [List.mem_singleton.mp hs]
    exact Nat.one_pos
  · cases hs

/-- Every submission is of at least one entry. -/
theorem submissions_pos {s : Submission} (hs : s ∈ u.submissions c) : 0 < s.toSubmit := by
  cases c with
  -- the cancellation is one entry
  | remove fd answer rounds =>
      rw [submissions] at hs
      rcases hslot : fdSlot fd with _ | i
      · rw [hslot] at hs
        cases hs
      · rw [hslot] at hs
        simp only at hs
        split_ifs at hs
        · rw [List.mem_singleton.mp hs]
          exact Nat.one_pos
        · cases hs
  | wait eventCap timeoutMs extArg w =>
      rw [submissions] at hs
      by_cases hcap : eventCap = 0
      · rw [if_pos hcap] at hs
        cases hs
      · rw [if_neg hcap] at hs
        rcases List.mem_append.mp hs with hfirst | hsecond
        · by_cases h0 : u.missing = 0
          · rw [if_pos h0] at hfirst
            cases hfirst
          · rw [if_neg h0] at hfirst
            rw [List.mem_singleton.mp hfirst]
            exact Nat.pos_of_ne_zero h0
        · rcases hres : u.submitMissing w.submit with ⟨err | n, armed⟩
          · rw [hres] at hsecond
            cases hsecond
          · rw [hres] at hsecond
            exact timeoutSubmissions_pos hsecond
  | _ => cases hs

/-- A call strands entries exactly if one of its submissions fails. -/
theorem strands_eq_zero : u.strands c = 0 ↔ u.Submits c := by
  rw [strands, List.sum_eq_zero_iff]
  constructor
  · intro h s hs
    have hzero := h s.strands (List.mem_map_of_mem hs)
    have hpos := submissions_pos hs
    rw [Submission.strands] at hzero
    rcases hfails : s.fails with _ | _
    · rfl
    · rw [hfails, if_pos rfl] at hzero
      omega
  · intro h n hn
    obtain ⟨s, hs, rfl⟩ := List.mem_map.mp hn
    rw [Submission.strands, h s hs]
    rfl

/-- **The queue is empty as long as no submission has failed**, and never again afterwards. -/
theorem Ran.sq_eq_nil (h : Ran TakesWhole past u) : u.sq = [] ↔ ∀ p ∈ past, p.1.Submits p.2 := by
  rw [← List.length_eq_zero_iff, h.stranded, List.sum_eq_zero_iff]
  constructor
  · intro hzero p hp
    exact strands_eq_zero.mp (hzero _ (List.mem_map_of_mem hp))
  · intro hsubmits n hn
    obtain ⟨p, hp, rfl⟩ := List.mem_map.mp hn
    exact strands_eq_zero.mpr (hsubmits p hp)

end Uring

/-! ## Flags and polls -/

namespace Registry

variable {r r' : Registry} {m : Move}

/-- The poll of every descriptor whose flag is set is outstanding. -/
structure Tracked (r : Registry) : Prop extends Wellformed r where
  active : ∀ i : Fin uringMaxFds, (r.fds i).active = true →
    ∃ tag ∈ r.outstanding, tag.1 = pollUserData i (r.fds i).generation
  unused : ∀ i, (r.fds i).used = false → (r.fds i).active = false

/-- A move at one descriptor that keeps the polls of the others. -/
theorem Tracked.of_slot (hr : r.Tracked) (hwell : r'.Wellformed) (i : Fin uringMaxFds)
    (hfds : ∀ j, j ≠ i → r'.fds j = r.fds j)
    (hkeep : ∀ j : Fin uringMaxFds, j ≠ i → ∀ tag ∈ r.outstanding,
      tag.1 = pollUserData j (r.fds j).generation → tag ∈ r'.outstanding)
    (hactive : (r'.fds i).active = true →
      ∃ tag ∈ r'.outstanding, tag.1 = pollUserData i (r'.fds i).generation)
    (hunused : (r'.fds i).used = false → (r'.fds i).active = false) : r'.Tracked := by
  refine { hwell with active := ?_, unused := ?_ }
  · intro j hj
    by_cases hij : j = i
    · rw [hij] at hj ⊢
      exact hactive hj
    · rw [hfds j hij] at hj ⊢
      obtain ⟨tag, hmem, hpoll⟩ := hr.active j hj
      exact ⟨tag, hkeep j hij tag hmem hpoll, hpoll⟩
  · intro j hj
    by_cases hij : j = i
    · rw [hij] at hj ⊢
      exact hunused hj
    · rw [hfds j hij] at hj ⊢
      exact hr.unused j hj

/-- A move that keeps the table and the polls. -/
theorem Tracked.of_same (hr : r.Tracked) (hwell : r'.Wellformed) (hfds : r'.fds = r.fds)
    (hkeep : ∀ j : Fin uringMaxFds, ∀ tag ∈ r.outstanding,
      tag.1 = pollUserData j (r.fds j).generation → tag ∈ r'.outstanding) : r'.Tracked := by
  refine { hwell with active := ?_, unused := ?_ }
  · intro j hj
    rw [hfds] at hj ⊢
    obtain ⟨tag, hmem, hpoll⟩ := hr.active j hj
    exact ⟨tag, hkeep j tag hmem hpoll, hpoll⟩
  · intro j hj
    rw [hfds] at hj ⊢
    exact hr.unused j hj

/-- **Every move keeps track of the polls.** -/
theorem Tracked.does (hr : r.Tracked) (h : Does m r r') : r'.Tracked := by
  have hwell := hr.toWellformed.does h
  have hgrow : ∀ tag : Nat × Nat, ∀ j : Fin uringMaxFds, ∀ tag' ∈ r.outstanding,
      tag'.1 = pollUserData j (r.fds j).generation → tag' ∈ r.outstanding + {tag} :=
    fun tag j tag' hmem _ => Multiset.mem_add.mpr (Or.inl hmem)
  -- a poll that is not the completion that is taken stays
  have herase : ∀ tag : Nat × Nat, ∀ j : Fin uringMaxFds, tag.1 ≠ pollUserData j (r.fds j).generation →
      ∀ tag' ∈ r.outstanding, tag'.1 = pollUserData j (r.fds j).generation →
        tag' ∈ r.outstanding.erase tag := by
    intro tag j hne tag' hmem hpoll
    refine (Multiset.mem_erase_of_ne ?_).mpr hmem
    rintro rfl
    exact hne hpoll
  cases h with
  | register i events =>
      refine hr.of_slot hwell i (fun j hj => setSlot_ne r hj _) (fun j _ tag hmem _ => hmem) ?_ ?_
      · rw [setSlot_same, registered]
        rcases hused : (r.fds i).used with _ | _
        · rw [if_neg (by simp)]
          intro hactive
          exact absurd ((hr.unused i hused).symm.trans hactive) (by decide)
        · rw [if_pos rfl]
          exact hr.active i
      · rw [setSlot_same, registered]
        rcases hused : (r.fds i).used with _ | _
        · intro hnot
          cases hnot
        · intro hnot
          cases hnot
  | arm i hused hactive =>
      have hsame : (r.setSlot i { r.fds i with active := true }).fds i
          = { r.fds i with active := true } := setSlot_same r i _
      refine hr.of_slot hwell i (fun j hj => setSlot_ne r hj _) (fun j _ => hgrow _ j) ?_ ?_
      · intro _
        refine ⟨r.pollTag i, Multiset.mem_add.mpr (Or.inr (Multiset.mem_singleton_self _)), ?_⟩
        rw [hsame]
        rfl
      · rw [hsame]
        intro hnot
        exact absurd (hused.symm.trans hnot) (by decide)
  | timeout => exact hr.of_same hwell rfl (hgrow _)
  | cancel i => exact hr.of_same hwell rfl (hgrow _)
  | ignore tag hmem hstale =>
      refine hr.of_same hwell rfl fun j => herase tag j fun heq => ?_
      exact hstale j (hr.poll_current heq)
  -- it may be the last poll of its entry, whose flag is cleared with it
  | settle i tag hmem hcurrent =>
      have hsame : (r.setSlot i { r.fds i with active := false }).fds i
          = { r.fds i with active := false } := setSlot_same r i _
      refine hr.of_slot hwell i (fun j hj => setSlot_ne r hj _) (fun j hj => ?_) ?_ ?_
      · refine herase tag j fun heq => hj ?_
        have hfd := (hr.poll_current heq).2.1.symm.trans hcurrent.2.1
        exact Fin.ext (by exact_mod_cast hfd)
      · rw [hsame]
        intro hactive
        cases hactive
      · intro _
        rw [hsame]
  | answer i tag hmem hcancel =>
      refine hr.of_same hwell rfl fun j => herase tag j fun heq => ?_
      exact pollUserData_ne_cancel _ _ _ _ (heq.symm.trans hcancel)
  | duplicate tag hmem => exact hr.of_same hwell rfl (hgrow _)
  | clear i =>
      have hsame : (r.setSlot i { r.fds i with active := false, used := false, events := 0 }).fds i
          = { r.fds i with active := false, used := false, events := 0 } := setSlot_same r i _
      refine hr.of_slot hwell i (fun j hj => setSlot_ne r hj _) (fun j _ tag hmem _ => hmem) ?_ ?_
      · rw [hsame]
        intro hactive
        cases hactive
      · intro _
        rw [hsame]

theorem Tracked.init : Uring.init.registry.Tracked :=
  { Uring.Recent.init.toWellformed with
    active := fun i hactive => by cases hactive
    unused := fun _ _ => rfl }

end Registry

namespace Uring

open Registry

variable {u v : Uring} {i : Fin uringMaxFds} {c : Call} {past : List (Uring × Call)}

theorem meets_all (u : Uring) (c : Call) : Meets (fun _ _ => True) u c where
  quiet := fun _ _ _ => trivial
  register := fun _ _ _ _ _ => trivial
  duplicate := fun _ _ _ _ _ _ _ _ _ => trivial
  settle := fun _ _ _ _ _ _ _ _ _ _ _ _ _ _ => trivial

/-- A run of any calls keeps track of the polls. -/
theorem Runs.tracked {allowed : Uring → Call → Prop} (h : Runs allowed Uring.init u) :
    u.registry.Tracked :=
  h.invariant (P := fun u => u.registry.Tracked)
    (fun {u _ c} _ hret hr => (call_moves (meets_all u c) hret).invariant
      (fun _ hdoes hr => hr.does hdoes) hr) Tracked.init

/-- The kernel has the poll of a descriptor, or has completed it. -/
def Polled (u : Uring) (i : Fin uringMaxFds) : Prop :=
  (∃ sqe ∈ u.inFlight, sqe.userData = pollUserData i (u.fds i).generation)
    ∨ ∃ cqe ∈ u.queue, cqe.userData = pollUserData i (u.fds i).generation

/-- With an empty submission queue the outstanding polls have reached the kernel. -/
theorem polled_of_empty (hr : u.registry.Tracked) (hsq : u.sq = [])
    (hactive : (u.fds i).active = true) : u.Polled i := by
  obtain ⟨tag, hmem, hpoll⟩ := hr.active i hactive
  replace hmem : tag ∈ u.outstanding := hmem
  replace hpoll : tag.1 = pollUserData i (u.fds i).generation := hpoll
  rw [outstanding, hsq, List.map_nil, Multiset.coe_nil, zero_add] at hmem
  rcases Multiset.mem_add.mp hmem with hflight | hqueue
  · obtain ⟨sqe, hsqe, rfl⟩ := List.mem_map.mp (Multiset.mem_coe.mp hflight)
    exact Or.inl ⟨sqe, hsqe, hpoll⟩
  · obtain ⟨cqe, hcqe, rfl⟩ := List.mem_map.mp (Multiset.mem_coe.mp hqueue)
    exact Or.inr ⟨cqe, hcqe, hpoll⟩

/-! ## Orphans -/

/-- An entry is left in the submission queue while the flag of its descriptor is set. -/
def Orphan (u : Uring) : Prop :=
  ∃ sqe ∈ u.sq, ∃ i : Fin uringMaxFds, isTimeoutUserData sqe.userData = false
    ∧ userDataFd sqe.userData = i ∧ (u.fds i).active = true

theorem Claims.orphan {sqe : Sqe} (hclaims : u.Claims sqe) (hmem : sqe ∈ u.sq) : u.Orphan := by
  obtain ⟨i, hpoll, hactive⟩ := hclaims
  refine ⟨sqe, hmem, i, ?_, ?_, hactive⟩
  · rw [hpoll, isTimeoutUserData_poll]
  · rw [hpoll, userDataFd_poll (slot_range i)]

theorem not_orphan (hsq : u.sq = []) : ¬ u.Orphan := by
  rintro ⟨sqe, hmem, -⟩
  rw [hsq] at hmem
  cases hmem

/-- A submission that takes as many entries as it has queued leaves the last one of them exactly if
the queue was not empty before. -/
theorem submitMissing_orphan (answer : Entered) (hmissing : u.missing ≠ 0)
    (htaken : answer.consumed = u.missing) :
    (u.submitMissing answer).2.Orphan ↔ u.sq ≠ [] := by
  obtain ⟨new, hlen, hclaims, -, hsome⟩ := submitMissing_queue u answer
  have hsq := (hsome hmissing).2
  rw [htaken, min_self, ← hlen] at hsq
  constructor
  · rintro ⟨sqe, hmem, -⟩ hempty
    rw [hsq, hempty, List.nil_append, List.drop_length] at hmem
    cases hmem
  · intro hne
    have hnew : new ≠ [] := by
      rintro rfl
      exact hmissing hlen.symm
    have hpos : 0 < u.sq.length := List.length_pos_iff.mpr hne
    refine (hclaims (new.getLast hnew) (List.getLast_mem hnew)).orphan ?_
    -- the entries that are left end with the last poll
    have hleft : (u.sq ++ new).drop new.length ≠ [] := by
      rw [Ne, List.drop_eq_nil_iff, List.length_append]
      omega
    have hlast : ((u.sq ++ new).drop new.length).getLast hleft = new.getLast hnew := by
      rw [List.getLast_drop, List.getLast_append_of_ne_nil]
    rw [hsq, ← hlast]
    exact List.getLast_mem hleft

/-- The submission that `h2_uring_submit_missing` makes takes all its entries, if the submissions of
the call do. -/
theorem submits_taken {eventCap : Nat} {timeoutMs : Int} {extArg : Bool} {w : Waiting}
    (hcap : eventCap ≠ 0) (hmissing : u.missing ≠ 0)
    (hwhole : u.TakesWhole (.wait eventCap timeoutMs extArg w))
    (hsubmits : u.Submits (.wait eventCap timeoutMs extArg w)) :
    w.submit.consumed = u.missing := by
  have hmem : ({ toSubmit := u.missing, answer := w.submit } : Submission)
      ∈ u.submissions (.wait eventCap timeoutMs extArg w) := by
    rw [submissions, if_neg hcap, if_neg hmissing]
    exact List.mem_append_left _ (List.mem_singleton_self _)
  have htaken := hwhole _ hmem
  rw [Submission.Whole, hsubmits _ hmem, if_neg (by simp)] at htaken
  exact htaken

/-- **Failed submissions leave orphans, and nothing else does.** In every run, when a `h2_io_wait`
is called whose submissions succeed: if no submission has failed before, then it leaves no entry in
the submission queue, and the kernel has the poll of every descriptor in use whose flag is set. If
one has failed before, and there is a poll to arm, then the last one that is queued stays in the
queue when the others are submitted. -/
theorem no_orphans (h : Ran TakesWhole past u) (eventCap : Nat) (timeoutMs : Int) (extArg : Bool)
    (w : Waiting) (hwhole : u.TakesWhole (.wait eventCap timeoutMs extArg w))
    (hsubmits : u.Submits (.wait eventCap timeoutMs extArg w))
    (hret : u.call (.wait eventCap timeoutMs extArg w) = some v) :
    ((∀ p ∈ past, p.1.Submits p.2) → v.sq = [] ∧ ¬ v.Orphan
        ∧ ∀ i, (v.fds i).used = true → (v.fds i).active = true → v.Polled i)
      ∧ (eventCap ≠ 0 → u.missing ≠ 0 →
        ((u.submitMissing w.submit).2.Orphan ↔ ∃ p ∈ past, ¬ p.1.Submits p.2)) := by
  constructor
  · intro hpast
    have hv := h.call hwhole hret
    have hsq : v.sq = [] := by
      apply hv.sq_eq_nil.mpr
      intro p hp
      rcases List.mem_cons.mp hp with rfl | hearlier
      · exact hsubmits
      · exact hpast p hearlier
    exact ⟨hsq, not_orphan hsq, fun i _ => polled_of_empty hv.runs.tracked hsq⟩
  · intro hcap hmissing
    rw [submitMissing_orphan w.submit hmissing (submits_taken hcap hmissing hwhole hsubmits), Ne,
      h.sq_eq_nil]
    push Not
    rfl

/-- Then there is one submission, where the timeout is no request of its own. -/
theorem submissions_one (hused : (u.fds i).used = true) (hactive : (u.fds i).active = false)
    (hothers : ∀ j, j ≠ i → (u.fds j).used = true → (u.fds j).active = true)
    (hroom : u.sq.length < uringEntries) (timeoutMs : Int) (w : Waiting) :
    u.submissions (.wait 1 timeoutMs true w) = [{ toSubmit := 1, answer := w.submit }] := by
  have hone := missing_one hused hactive hothers hroom
  have hnone : ∀ armed : Uring, armed.timeoutSubmissions timeoutMs true w = [] := by
    intro armed
    rw [timeoutSubmissions, if_neg fun h => absurd h.2.2.1 (by decide)]
  rw [submissions, if_neg Nat.one_ne_zero, hone, if_neg Nat.one_ne_zero]
  rcases u.submitMissing w.submit with ⟨err | n, armed⟩
  · rfl
  · simp only [hnone armed]
    rfl

/-- Another descriptor is registered where all others have their polls. -/
theorem addConnection_others {fd : Int} (hslot : fdSlot fd = some i)
    (hothers : ∀ j, (u.fds j).used = true → (u.fds j).active = true) (j : Fin uringMaxFds)
    (hj : j ≠ i) (hused : ((u.addConnection fd).2.fds j).used = true) :
    ((u.addConnection fd).2.fds j).active = true := by
  have hsame : (u.addConnection fd).2.fds j = u.fds j := by
    rw [addConnection, setFd_eq, hslot]
    exact setSlot_ne u hj _
  rw [hsame] at hused ⊢
  exact hothers j hused

/-- The first wait after the first registration. -/
theorem no_orphans_first : polling.sq = [] ∧ ¬ polling.Orphan
    ∧ ∀ i, (polling.fds i).used = true → (polling.fds i).active = true → polling.Polled i := by
  obtain ⟨u, hu, hpolling⟩ := @polling_reached (.addConnection 5) (Or.inl rfl)
  obtain rfl : (Uring.init.addConnection 5).2 = u := Option.some.inj hu
  have hsubmissions : (Uring.init.addConnection 5).2.submissions (.wait 1 0 true takingWaiting)
      = [{ toSubmit := 1, answer := takingWaiting.submit }] :=
    submissions_one (i := 5) rfl rfl
      (addConnection_others (fdSlot_slot 5) fun j hused => by cases hused) (by decide) 0 _
  have hwhole : (Uring.init.addConnection 5).2.TakesWhole (.wait 1 0 true takingWaiting) :=
    (takesWhole_single hsubmissions).mpr rfl
  have hsubmits : (Uring.init.addConnection 5).2.Submits (.wait 1 0 true takingWaiting) :=
    (submits_single hsubmissions).mpr rfl
  refine (no_orphans (Ran.call .init (fun s hs => ?_) hu) 1 0 true takingWaiting hwhole hsubmits
    hpolling).1 fun p hp s hs => ?_
  · cases hs
  · rw [List.mem_singleton.mp hp] at hs
    cases hs

/-- The submission fails, and the kernel takes nothing. -/
def failingWaiting : Waiting :=
  { submit := { consumed := 0, result := .error .other }
    posted := []
    wait := { consumed := 0, result := .ok 0 }
    later := [] }

/-- The submission of the poll of descriptor 5 fails. The next one is of the poll of descriptor 6,
takes that of 5, and leaves the one it was made for. -/
theorem orphan_left : ∃ past u v, Ran TakesWhole past u
    ∧ u.TakesWhole (.wait 1 0 true takingWaiting) ∧ u.Submits (.wait 1 0 true takingWaiting)
    ∧ u.call (.wait 1 0 true takingWaiting) = some v ∧ v.Orphan
    ∧ (v.fds 6).used = true ∧ (v.fds 6).active = true ∧ ¬ v.Polled 6 := by
  -- descriptor 5 is registered, and its poll stays in the submission queue
  obtain ⟨a, ha⟩ : ∃ a, a = (Uring.init.addConnection 5).2 := ⟨_, rfl⟩
  have haothers : ∀ j, j ≠ 5 → (a.fds j).used = true → (a.fds j).active = true := by
    rw [ha]
    exact addConnection_others (fdSlot_slot 5) fun j hused => by cases hused
  have haused : (a.fds 5).used = true := by rw [ha]; rfl
  have haidle : (a.fds 5).active = false := by rw [ha]; rfl
  have haroom : a.sq.length < uringEntries := by rw [ha]; decide
  obtain ⟨b, hb⟩ : ∃ b, b = ((a.arm 5).enter 1 0 failingWaiting.submit).2 := ⟨_, rfl⟩
  have hab : a.call (.wait 1 0 true failingWaiting) = some b := by
    rw [call, wait, if_neg Nat.one_ne_zero,
      submitMissing_one haused haidle haothers haroom failingWaiting.submit, hb]
    rfl
  have hbfds : b.fds = Function.update a.fds 5 { a.fds 5 with active := true } := by
    rw [hb]
    rfl
  have hbothers : ∀ j, (b.fds j).used = true → (b.fds j).active = true := by
    intro j hused
    rw [hbfds] at hused ⊢
    by_cases hj : j = 5
    · rw [hj, Function.update_self]
    · rw [Function.update_of_ne hj] at hused ⊢
      exact haothers j hj hused
  -- then descriptor 6 is registered
  obtain ⟨u, hu⟩ : ∃ u, u = (b.addConnection 6).2 := ⟨_, rfl⟩
  have hb6 : b.fds 6 = Uring.init.fds 6 := by
    rw [hbfds, Function.update_of_ne (by decide), ha]
    exact setSlot_ne _ (by decide) _
  have hu6 : u.fds 6 = registered (Uring.init.fds 6) 0x2019 := by
    have hset : u = b.setSlot 6 (registered (b.fds 6) 0x2019) := by
      rw [hu, addConnection, setFd_eq, show fdSlot 6 = some 6 from fdSlot_slot 6]
      rfl
    rw [hset, setSlot_same, hb6]
  have huothers : ∀ j, j ≠ 6 → (u.fds j).used = true → (u.fds j).active = true := by
    rw [hu]
    exact addConnection_others (fdSlot_slot 6) hbothers
  have husq : u.sq = [a.pollSqe 5] := by
    rw [hu, hb, ha]
    rfl
  have huroom : u.sq.length < uringEntries := by
    rw [husq]
    exact (by decide : 1 < uringEntries)
  have hsubmissions := submissions_one (by rw [hu6]; rfl) (by rw [hu6]; rfl) huothers huroom 0
    takingWaiting
  have hcall := wait_arms (by rw [hu6]; rfl) (by rw [hu6]; rfl) huothers huroom
    (show u.pendingCqes = [] by rw [hu, hb, ha]; rfl) (show u.cq = [] by rw [hu, hb, ha]; rfl)
  obtain ⟨v, hv⟩ : ∃ v, v = ((u.arm 6).enter 1 0 takingWaiting.submit).2 := ⟨_, rfl⟩
  rw [← hv] at hcall
  -- `to_submit` is 1, and the kernel takes the older entry
  have hvsq : v.sq = [u.pollSqe 6] := by
    have hdrop : v.sq = (u.sq ++ [u.pollSqe 6]).drop 1 := by
      rw [hv]
      rfl
    rw [hdrop, husq]
    rfl
  have hvflight : v.inFlight = [a.pollSqe 5] := by
    have htake : v.inFlight = u.inFlight ++ (u.sq ++ [u.pollSqe 6]).take 1 := by
      rw [hv]
      rfl
    have hnone : u.inFlight = [] := by
      rw [hu, hb, ha]
      rfl
    rw [htake, husq, hnone]
    rfl
  have hv6 : v.fds 6 = { u.fds 6 with active := true } := by
    rw [hv]
    exact Function.update_self 6 { u.fds 6 with active := true } u.fds
  have hvqueue : v.queue = [] := by
    rw [hv, hu, hb, ha]
    rfl
  have hclaims : v.Claims (u.pollSqe 6) := ⟨6, by rw [hv6]; rfl, by rw [hv6]⟩
  have hrun : Ran TakesWhole [(b, .addConnection 6), (a, .wait 1 0 true failingWaiting),
      (Uring.init, .addConnection 5)] u := by
    refine .call (.call (.call .init ?_ (by rw [ha]; rfl)) ?_ hab) ?_ (by rw [hu]; rfl)
    · intro s hs
      cases hs
    · exact (takesWhole_single (submissions_one haused haidle haothers haroom 0 _)).mpr rfl
    · intro s hs
      cases hs
  refine ⟨_, u, v, hrun, ?_, ?_, hcall, hclaims.orphan (by rw [hvsq]; simp), ?_, ?_, ?_⟩
  · exact (takesWhole_single hsubmissions).mpr rfl
  · exact (submits_single hsubmissions).mpr rfl
  · rw [hv6, hu6]
    rfl
  · rw [hv6]
  · rintro (⟨sqe, hmem, hpoll⟩ | ⟨cqe, hmem, -⟩)
    · rw [hvflight] at hmem
      rw [List.mem_singleton.mp hmem] at hpoll
      exact pollUserData_slot_ne (i := 6) (j := 5) (by decide) _ _ hpoll
    · rw [hvqueue] at hmem
      cases hmem

end Uring

end C11Omo.IoUring
