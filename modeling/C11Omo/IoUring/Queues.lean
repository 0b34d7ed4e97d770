import Mathlib.Data.List.Sort
import C11Omo.IoUring.Removal

set_option autoImplicit false

/-! # The two queues

Completions wait in the saved array and in the ring. `h2_io_wait` takes them from the front of the
two queues together, and reports each at most once; but before that it goes to sleep if the ring
is empty, whatever has been saved (`saved_completion_delivered`). A removal moves completions from
the ring to the array. It loses none, and duplicates some if the array fills up in the middle of a
look at the ring (`completions_accounted`).
-/

namespace C11Omo.IoUring

open C11Omo.Http2 C11Omo.Lib

namespace Uring

variable {u v : Uring} {fd : Fin uringMaxFds} {ret : Int}

/-! ## Saved completions and sleep -/

theorem submitMissingLoop_skip {is : List (Fin uringMaxFds)}
    (h : ∀ i ∈ is, (u.fds i).used = true → (u.fds i).active = true) (submitted : Nat) :
    submitMissingLoop is submitted u = (submitted, u) := by
  induction is with
  | nil => rfl
  | cons i is ih =>
      have hskip : (u.fds i).used = false ∨ (u.fds i).active = true := by
        rcases hused : (u.fds i).used with _ | _
        · exact Or.inl rfl
        · exact Or.inr (h i List.mem_cons_self hused)
      rw [submitMissingLoop, if_pos hskip, ih fun j hj => h j (List.mem_cons_of_mem i hj)]

/-- With nothing to arm, nothing is submitted. -/
theorem submitMissing_idle (h : ∀ i, (u.fds i).used = true → (u.fds i).active = true)
    (answer : Entered) : u.submitMissing answer = (.ok 0, u) := by
  unfold submitMissing
  generalize List.finRange uringMaxFds = is
  rw [submitMissingLoop_skip fun i _ => h i]
  rfl

/-- The descriptor is in use and has no poll. -/
def NeedsPoll (u : Uring) (i : Fin uringMaxFds) : Prop :=
  (u.fds i).used = true ∧ (u.fds i).active = false

instance (u : Uring) (i : Fin uringMaxFds) : Decidable (u.NeedsPoll i) :=
  inferInstanceAs (Decidable (_ ∧ _))

/-- **The loop of `h2_uring_submit_missing`** queues the polls that are missing, in the order of the
descriptors, if there is room for them. -/
theorem submitMissingLoop_filter {is : List (Fin uringMaxFds)} (hnodup : is.Nodup)
    (hroom : u.sq.length + (is.filter fun i => u.NeedsPoll i).length ≤ uringEntries)
    (submitted : Nat) : submitMissingLoop is submitted u
      = (submitted + (is.filter fun i => u.NeedsPoll i).length,
        (is.filter fun i => u.NeedsPoll i).foldl arm u) := by
  induction is generalizing submitted u with
  | nil => rfl
  | cons i is ih =>
      obtain ⟨hi, hnodup⟩ := List.nodup_cons.mp hnodup
      rw [submitMissingLoop]
      by_cases hneeds : u.NeedsPoll i
      · -- the poll of `i` changes nothing for the rest of the loop
        have hsame : (is.filter fun j => (u.arm i).NeedsPoll j) = is.filter fun j => u.NeedsPoll j := by
          refine List.filter_congr fun j hj => ?_
          have hij : j ≠ i := fun h => hi (h ▸ hj)
          have hslot : (u.arm i).fds j = u.fds j := Function.update_of_ne hij _ _
          exact decide_eq_decide.mpr (by simp only [NeedsPoll, hslot])
        rw [List.filter_cons_of_pos (by simpa using hneeds), List.length_cons] at hroom ⊢
        have harmed : (u.arm i).sq.length = u.sq.length + 1 := List.length_append
        have hrest := ih (u := u.arm i) hnodup (by rw [hsame]; omega) (submitted + 1)
        rw [hsame] at hrest
        rw [if_neg (by simp [hneeds.1, hneeds.2]), getSqe, if_neg (by omega), List.foldl_cons]
        refine hrest.trans (Prod.ext ?_ rfl)
        exact Nat.add_right_comm submitted 1 _
      · have hskip : (u.fds i).used = false ∨ (u.fds i).active = true := by
          rcases hused : (u.fds i).used with _ | _
          · exact Or.inl rfl
          · exact Or.inr (by simpa [NeedsPoll, hused] using hneeds)
        rw [List.filter_cons_of_neg (by simpa using hneeds)] at hroom ⊢
        rw [if_pos hskip]
        exact ih hnodup hroom submitted

/-- The loop over all descriptors, if those in `is` need a poll. -/
theorem submitMissingLoop_needed {is : List (Fin uringMaxFds)} (hsorted : is.Pairwise (· < ·))
    (hneeds : ∀ i, i ∈ is ↔ u.NeedsPoll i) (hroom : u.sq.length + is.length ≤ uringEntries) :
    submitMissingLoop (List.finRange uringMaxFds) 0 u = (is.length, is.foldl arm u) := by
  have his : ((List.finRange uringMaxFds).filter fun i => u.NeedsPoll i) = is := by
    refine List.Pairwise.eq_of_mem_iff ((List.pairwise_lt_finRange _).filter _) hsorted fun i => ?_
    rw [hneeds, List.mem_filter, decide_eq_true_iff]
    exact and_iff_right (List.mem_finRange i)
  have hloop := submitMissingLoop_filter (u := u) (List.nodup_finRange uringMaxFds)
    (by rw [his]; exact hroom) 0
  rwa [his, Nat.zero_add] at hloop

/-- One descriptor needs a poll. -/
theorem needsPoll_one {i : Fin uringMaxFds} (hused : (u.fds i).used = true)
    (hactive : (u.fds i).active = false)
    (hothers : ∀ j, j ≠ i → (u.fds j).used = true → (u.fds j).active = true)
    (j : Fin uringMaxFds) : j ∈ [i] ↔ u.NeedsPoll j := by
  rw [List.mem_singleton]
  constructor
  · rintro rfl
    exact ⟨hused, hactive⟩
  · rintro ⟨hj, hidle⟩
    by_contra hne
    rw [hothers j hne hj] at hidle
    cases hidle

/-- All polls that are missing are submitted at once. -/
theorem submitMissing_needed {is : List (Fin uringMaxFds)} (hsorted : is.Pairwise (· < ·))
    (hneeds : ∀ i, i ∈ is ↔ u.NeedsPoll i) (hroom : u.sq.length + is.length ≤ uringEntries)
    (hsome : is ≠ []) (answer : Entered) :
    u.submitMissing answer = (is.foldl arm u).enter is.length 0 answer := by
  have hloop := submitMissingLoop_needed hsorted hneeds hroom
  unfold submitMissing
  rw [hloop]
  cases is with
  | nil => exact absurd rfl hsome
  | cons i is => rfl

/-- With one descriptor to arm, one request is submitted. -/
theorem submitMissing_one {i : Fin uringMaxFds} (hused : (u.fds i).used = true)
    (hactive : (u.fds i).active = false)
    (hothers : ∀ j, j ≠ i → (u.fds j).used = true → (u.fds j).active = true)
    (hroom : u.sq.length < uringEntries) (answer : Entered) :
    u.submitMissing answer = (u.arm i).enter 1 0 answer :=
  submitMissing_needed (List.pairwise_singleton _ i) (needsPoll_one hused hactive hothers)
    (by simpa using hroom) (List.cons_ne_nil i []) answer

/-- Delivery makes no system call. -/
theorem deliver_entered (u : Uring) (eventCap : Nat) (later : List Post) :
    (u.deliver eventCap later).2.entered = u.entered := by
  obtain ⟨new, inFlight, -, -, -, pendingCqes, cq, hend⟩ := deliver_eq u eventCap later
  rw [hend]

/-- An entry for the saved completion, or the capacity is used up by the entries before it; and
the program has not slept before. -/
def DeliversSaved (u : Uring) (before : List Cqe) (event : IoEvent) (eventCap : Nat)
    (r : Option (List IoEvent) × Uring) : Prop :=
  (∀ call ∈ r.2.entered.drop u.entered.length, call.minComplete = 0)
    ∧ ∃ events, r.1 = some events ∧ (event ∈ events
      ∨ events = (before.filterMap u.report).take eventCap ∧ events.length = eventCap)

/-- The ring that `h2_io_wait` tests for being empty. -/
def testedRing (u : Uring) (w : Waiting) : List Cqe :=
  ((u.submitMissing w.submit).2.posts w.posted).cq

/-- **Waiting sleeps** exactly if the ring is empty and the timeout is not zero, unless there is no
room for the timeout request. -/
theorem waits_sleeps (u : Uring) (timeoutMs : Int) (extArg : Bool) (w : Waiting) :
    (timeoutMs = 0 ∨ (u.posts w.posted).cq ≠ [] →
        u.waits timeoutMs extArg w = (.ok 0, u.posts w.posted))
      ∧ (timeoutMs ≠ 0 → (u.posts w.posted).cq = [] →
        (u.waits timeoutMs extArg w).1 = .error .eagain
          ∨ ∃ call, (u.waits timeoutMs extArg w).2.entered = u.entered ++ [call]
            ∧ call.minComplete ≠ 0) := by
  have hentered : (u.posts w.posted).entered = u.entered := by
    obtain ⟨new, inFlight, -, hposts⟩ := posts_eq u w.posted
    rw [hposts]
  constructor
  · -- with a completion in the ring, or with timeout 0, the kernel is not entered
    intro h
    rw [waits]
    by_cases hempty : (u.posts w.posted).cq = []
    · have h0 : timeoutMs = 0 := h.resolve_right (not_not.mpr hempty)
      simp only [if_pos hempty]
      rw [waitForEvent, if_pos h0]
    · simp only [if_neg hempty]
  · intro h0 hempty
    rw [waits]
    simp only [if_pos hempty]
    rw [waitForEvent, if_neg h0]
    -- every other way of waiting enters it for one completion
    by_cases hneg : timeoutMs < 0
    · rw [if_pos hneg, enter_zero]
      exact Or.inr ⟨_, by rw [hentered], Nat.one_ne_zero⟩
    · rw [if_neg hneg]
      cases extArg with
      | true =>
          rw [if_pos rfl, enter_zero]
          exact Or.inr ⟨_, by rw [hentered], Nat.one_ne_zero⟩
      | false =>
          rw [if_neg (by simp), submitTimeoutSqe, getSqe]
          by_cases hfull : (u.posts w.posted).sq.length ≥ uringEntries
          · rw [if_pos hfull]
            exact Or.inl rfl
          · rw [if_neg hfull]
            exact Or.inr ⟨{ toSubmit := 1, minComplete := 1 }, by rw [← hentered]; rfl,
              Nat.one_ne_zero⟩

/-- Waiting that ends without an error is followed by delivery. -/
theorem wait_delivers {eventCap : Nat} (hcap : eventCap ≠ 0) {timeoutMs : Int} {extArg : Bool}
    {w : Waiting} {armed waited : Uring} {n m : Nat}
    (hsubmit : u.submitMissing w.submit = (.ok n, armed))
    (hwaits : armed.waits timeoutMs extArg w = (.ok m, waited)) :
    u.wait eventCap timeoutMs extArg w
      = (some (waited.deliver eventCap w.later).1, (waited.deliver eventCap w.later).2) := by
  rw [wait, if_neg hcap, hsubmit]
  simp only [hwaits]

/-- With timeout 0 there is no waiting. -/
theorem wait_polls {eventCap : Nat} (hcap : eventCap ≠ 0) (extArg : Bool) {w : Waiting}
    {armed : Uring} {n : Nat} (hsubmit : u.submitMissing w.submit = (.ok n, armed)) :
    u.wait eventCap 0 extArg w = (some ((armed.posts w.posted).deliver eventCap w.later).1,
      ((armed.posts w.posted).deliver eventCap w.later).2) :=
  wait_delivers hcap hsubmit ((waits_sleeps armed 0 extArg w).1 (Or.inl rfl))

/-- **A saved completion** that has an event is delivered, without sleeping first, exactly if the
timeout is zero or the ring is not empty when it is tested. -/
theorem saved_completion_delivered {u : Uring} {before after : List Cqe} {cqe : Cqe}
    (hsaved : u.pendingCqes = before ++ cqe :: after) {event : IoEvent}
    (hevent : u.report cqe = some event) {eventCap : Nat} (hcap : eventCap ≠ 0) (timeoutMs : Int)
    (extArg : Bool) {w : Waiting} {n : Nat} (hsubmit : w.submit.result = .ok n) :
    u.DeliversSaved before event eventCap (u.wait eventCap timeoutMs extArg w)
      ↔ timeoutMs = 0 ∨ u.testedRing w ≠ [] := by
  obtain ⟨-, -, -, hres, calls, hcalls, hquiet⟩ := submitMissing_outcome u w.submit
  obtain ⟨hsame, hpend, hcq, hposted⟩ := submitMissing_frame u w.submit
  rw [hsubmit] at hres
  obtain ⟨hawake, hsleep⟩ := waits_sleeps (u.submitMissing w.submit).2 timeoutMs extArg w
  rcases wait_outcome u hcap timeoutMs extArg w rfl rfl with
    ⟨⟨err, herr⟩, -⟩ | ⟨⟨err, herr⟩, hend⟩ | ⟨⟨m, hm⟩, hend⟩
  · -- the submission succeeds
    rcases hres with hok | hok
    · rw [hok] at herr
      cases herr
    · rw [hok] at herr
      cases herr
  · -- waiting fails, so there are no events
    constructor
    · rintro ⟨-, events, hevents, hgot⟩
      rcases hend with hend | hend
      · rw [hend] at hevents
        cases hevents
      · rw [hend] at hevents
        obtain rfl := Option.some.inj hevents
        rcases hgot with hmem | ⟨-, hlen⟩
        · cases hmem
        · exact absurd hlen.symm hcap
    · intro hcond
      rw [hawake hcond] at herr
      cases herr
  · have hadv := waits_advances (u.submitMissing w.submit).2 timeoutMs extArg w
    generalize (u.submitMissing w.submit).2.waits timeoutMs extArg w = waited at *
    obtain ⟨new, -, hqueue⟩ := hadv.queue
    obtain ⟨new', inFlight, -, hevents, -, -⟩ := deliver_eq waited.2 eventCap w.later
    have hreport : waited.2.report = u.report :=
      (hsame.trans (.of_fds hadv.fds)).report
    have hfront : waited.2.queue ++ new'
        = before ++ cqe :: (after ++ (u.submitMissing w.submit).2.cq ++ new ++ new') := by
      rw [hqueue, queue, hpend, hsaved]
      simp only [List.append_assoc, List.cons_append]
    have hgot := @workOff_mem _ _ u.report eventCap before
      (after ++ (u.submitMissing w.submit).2.cq ++ new ++ new') cqe event hevent
    rw [hreport, hfront] at hevents
    rw [← hevents] at hgot
    -- the event is delivered, or the array is full of earlier ones: what is left is sleeping
    have hhalf : u.DeliversSaved before event eventCap (u.wait eventCap timeoutMs extArg w)
        ↔ ∀ call ∈ waited.2.entered.drop u.entered.length, call.minComplete = 0 := by
      rw [DeliversSaved, hend, deliver_entered]
      refine ⟨fun h => h.1, fun h => ⟨h, _, rfl, ?_⟩⟩
      rcases hgot with hmem | ⟨hbefore, hlen⟩
      · exact Or.inl hmem
      · exact Or.inr ⟨hbefore, by rw [hbefore]; exact hlen⟩
    rw [hhalf]
    constructor
    · intro hnone
      by_contra hcond
      rw [not_or, testedRing, not_not] at hcond
      rcases hsleep hcond.1 hcond.2 with hfail | ⟨call, hcall, hblocks⟩
      · rw [hm] at hfail
        cases hfail
      · apply hblocks
        apply hnone
        rw [hcall, hcalls, List.append_assoc, List.drop_left]
        exact List.mem_append_right _ (List.mem_singleton_self call)
    · intro hcond
      have hstay : waited.2.entered = (u.submitMissing w.submit).2.entered := by
        obtain ⟨new'', inFlight', -, hposts⟩ := posts_eq (u.submitMissing w.submit).2 w.posted
        rw [hawake hcond, hposts]
      rw [hstay, hcalls, List.drop_left]
      exact hquiet

/-- A poll of descriptor 5, in its first registration, has found it readable. -/
def readyCqe : Cqe := { userData := pollUserData 5 1, res := 1, flags := 0, registration := 1 }

/-- The completion has been saved while another descriptor was removed. -/
def oneSaved : Uring :=
  { Uring.init with
    pendingCqes := [readyCqe]
    fds := Function.update Uring.init.fds 5
      { used := true, active := true, events := 0x2019, generation := 1, registrations := 1 } }

/-- The kernel posts nothing, and every `io_uring_enter` returns. -/
def quietWaiting : Waiting :=
  { submit := { consumed := 0, result := .ok 0 }
    posted := []
    wait := { consumed := 0, result := .ok 0 }
    later := [] }

theorem oneSaved_armed (i : Fin uringMaxFds) (h : (oneSaved.fds i).used = true) :
    (oneSaved.fds i).active = true := by
  by_cases hi : i = 5
  · rw [hi]
    rfl
  · have hinit : oneSaved.fds i = Uring.init.fds i := Function.update_of_ne hi _ _
    rw [hinit] at h
    cases h

theorem oneSaved_report : oneSaved.report readyCqe = some (pollEvent 5 1) := by
  rw [Uring.report_eq_some]
  exact ⟨5, Uring.current_eq_some.mpr (by decide), by decide, rfl, rfl⟩

theorem saved_completion_delivered_poll : oneSaved.DeliversSaved [] (pollEvent 5 1) 1
    (oneSaved.wait 1 0 true quietWaiting) :=
  (saved_completion_delivered (show oneSaved.pendingCqes = [] ++ readyCqe :: [] from rfl)
    oneSaved_report Nat.one_ne_zero 0 true (show quietWaiting.submit.result = Except.ok 0 from rfl)).mpr
      (Or.inl rfl)

/-- With an infinite timeout the program sleeps first, although the ring is only empty because the
completion has been saved. -/
theorem saved_completion_slept : oneSaved.report readyCqe = some (pollEvent 5 1)
    ∧ ¬ oneSaved.DeliversSaved [] (pollEvent 5 1) 1 (oneSaved.wait 1 (-1) true quietWaiting) := by
  refine ⟨oneSaved_report, fun h => ?_⟩
  have hidle := submitMissing_idle oneSaved_armed quietWaiting.submit
  have hentered : (oneSaved.wait 1 (-1) true quietWaiting).2.entered
      = [{ toSubmit := 0, minComplete := 1 }] := by
    rcases wait_outcome oneSaved Nat.one_ne_zero (-1) true quietWaiting rfl rfl with
      ⟨⟨err, herr⟩, -⟩ | ⟨⟨err, herr⟩, -⟩ | ⟨-, hend⟩
    · rw [hidle] at herr
      cases herr
    · rw [hidle] at herr
      cases herr
    · rw [hend, deliver_entered, hidle]
      rfl
  have hslept := h.1
  rw [hentered] at hslept
  exact absurd (hslept _ List.mem_cons_self) (by decide)

/-! ## Nothing is lost -/

/-- The queue after `h2_uring_drain_until_cancel` is the queue before it, with what the kernel has
posted meanwhile, less the cancellation if it was found; if it was not, then the ring does not
begin with it. -/
def Kept (u : Uring) (fd : Fin uringMaxFds) (ret : Int) (v : Uring) : Prop :=
  ∃ new, v.posted = u.posted ++ new
    ∧ ((ret = -1 ∧ v.queue = u.queue ++ new ∧ ∀ cqe ∈ v.cq.head?, ¬ u.Matches fd cqe)
      ∨ ∃ before cqe after, u.Matches fd cqe ∧ ret = cancelStatus cqe
        ∧ u.queue ++ new = before ++ cqe :: after ∧ v.queue = before ++ after)

/-- **A removal keeps the other completions** exactly if the array of saved completions does not
fill up in the middle of a look at the ring. -/
theorem drainUntilCancel_kept {rounds : List Round}
    (h : drainUntilCancel fd rounds u = some (ret, v)) :
    u.Kept fd ret v ↔ ¬ u.Overruns fd rounds := by
  obtain ⟨new, hposted, -, -, -, hend⟩ := drainUntilCancel_outcome h
  -- the kernel's posts are determined by the state
  have hnew : ∀ new', v.posted = u.posted ++ new' → new' = new := by
    intro new' hposted'
    rw [hposted] at hposted'
    exact (List.append_cancel_left hposted').symm
  cases hend with
  | failed hsaved hcq hrun hanswer =>
      refine ⟨fun _ => hrun, fun _ => ⟨new, hposted, Or.inl ⟨rfl, ?_, ?_⟩⟩⟩
      · rw [queue, hsaved, hcq, List.append_nil]
      · rw [hcq]
        intro cqe hcqe
        cases hcqe
  | found before cqe hmatch hsaved hqueue hrun hanswer =>
      refine ⟨fun _ => hrun, fun _ => ⟨new, hposted, Or.inr ?_⟩⟩
      exact ⟨before, cqe, v.cq, hmatch, rfl, hqueue, by rw [queue, hsaved]⟩
  | full before twice rest hsaved hcq hqueue hhead hrun hanswer =>
      have hlen : v.queue.length = (u.queue ++ new).length + twice.length := by
        rw [hqueue, queue, hsaved]
        simp only [List.length_append]
        omega
      rw [hrun]
      constructor
      · rintro ⟨new', hposted', hkept⟩ htwice
        have hpos := List.length_pos_iff.mpr htwice
        obtain rfl := hnew new' hposted'
        rcases hkept with ⟨-, hsame, -⟩ | ⟨front, cqe, back, -, -, hsplit, hleft⟩
        · rw [hsame] at hlen
          omega
        · rw [hleft, hsplit] at hlen
          simp only [List.length_append, List.length_cons] at hlen
          omega
      · intro htwice
        rw [not_not] at htwice
        refine ⟨new, hposted, Or.inl ⟨rfl, ?_, hhead⟩⟩
        rw [htwice, List.append_nil] at hsaved
        rw [queue, hsaved, hqueue]

/-- What `h2_io_wait` has done to the queue when it returns: it has taken the completions
`processed` from the front, settled each of them once, and reported those that have an event. -/
def Processed (u armed : Uring) (processed : List Cqe) (r : Option (List IoEvent) × Uring) : Prop :=
  ∃ new, r.2.posted = u.posted ++ new
    ∧ u.queue ++ new = processed ++ r.2.queue
    ∧ r.1.getD [] = processed.filterMap u.report
    ∧ r.2.fds = (armed.settleAll processed).fds

/-- The state after `h2_uring_submit_missing`, if it is called. -/
def armedFor (u : Uring) (eventCap : Nat) (w : Waiting) : Uring :=
  if eventCap = 0 then u else (u.submitMissing w.submit).2

/-- What `h2_io_wait` does to the outstanding requests: it arms polls, and it takes what it has
processed. -/
theorem wait_work (u : Uring) (eventCap : Nat) (timeoutMs : Int) (extArg : Bool) (w : Waiting) :
    ∃ processed n, u.Processed (u.armedFor eventCap w) processed
        (u.wait eventCap timeoutMs extArg w)
      ∧ (u.wait eventCap timeoutMs extArg w).2.outstanding
          + (processed.map Cqe.tag : Multiset (Nat × Nat))
        = (u.armedFor eventCap w).outstanding + Multiset.replicate n (uringTimeoutFlag, 0) := by
  by_cases hcap : eventCap = 0
  · refine ⟨[], 0, ?_⟩
    rw [wait, armedFor, if_pos hcap, if_pos hcap]
    exact ⟨⟨[], by simp, by simp, rfl, rfl⟩, by simp⟩
  · obtain ⟨hsame, hpend, hcq, hposted⟩ := submitMissing_frame u w.submit
    have hadv := waits_advances (u.submitMissing w.submit).2 timeoutMs extArg w
    have hqueue : (u.submitMissing w.submit).2.queue = u.queue := by rw [queue, queue, hpend, hcq]
    rw [armedFor, if_neg hcap]
    have houtcome := wait_outcome u hcap timeoutMs extArg w rfl rfl
    generalize (u.submitMissing w.submit).2 = armed at *
    generalize armed.waits timeoutMs extArg w = waited at *
    obtain ⟨new, hnew, hgrown⟩ := hadv.queue
    obtain ⟨n, hout⟩ := hadv.outstanding
    rw [hposted] at hnew
    rw [hqueue] at hgrown
    -- the submission fails, waiting fails, or completions are delivered
    rcases houtcome with ⟨-, hend⟩ | ⟨-, hend⟩ | ⟨-, hend⟩
    · rw [hend]
      refine ⟨[], 0, ⟨[], ?_, ?_, rfl, rfl⟩, by simp⟩
      · rw [hposted, List.append_nil]
      · rw [hqueue, List.append_nil]
        rfl
    · have hfds : waited.2.fds = (armed.settleAll []).fds := hadv.fds
      have hstay : waited.2.outstanding + (([] : List Cqe).map Cqe.tag : Multiset (Nat × Nat))
          = armed.outstanding + Multiset.replicate n (uringTimeoutFlag, 0) := by
        rw [hout]
        exact add_zero _
      rcases hend with hend | hend
      · rw [hend]
        exact ⟨[], n, ⟨new, hnew, hgrown.symm, rfl, hfds⟩, hstay⟩
      · rw [hend]
        exact ⟨[], n, ⟨new, hnew, hgrown.symm, rfl, hfds⟩, hstay⟩
    · obtain ⟨new', inFlight, hcomp, hevents, hleft, pendingCqes, cq, hstate⟩ :=
        deliver_eq waited.2 eventCap w.later
      have hreport : waited.2.report = u.report := (hsame.trans (.of_fds hadv.fds)).report
      have hall := workOff_append u.report eventCap (waited.2.queue ++ new')
      rw [hreport] at hevents hleft hstate
      rw [← hleft] at hall
      rw [hend]
      refine ⟨(workOff u.report eventCap (waited.2.queue ++ new')).1, n,
        ⟨new ++ new', ?_, ?_, ?_, ?_⟩, ?_⟩
      · rw [hstate, hnew, List.append_assoc]
      · rw [hall, hgrown, List.append_assoc]
      · rw [Option.getD_some, hevents]
      · rw [hstate]
        exact settleAll_congr hadv.fds _
      · rw [← hout]
        exact outstanding_taken (by rw [hstate]) (by rw [hstate]; exact hcomp) hall.symm

/-- The polls that are armed for a call of `h2_io_wait`. -/
theorem armedFor_arms (u : Uring) (eventCap : Nat) (w : Waiting) : ∃ armed n,
    Relation.ReflTransGen Arms u armed ∧ (u.armedFor eventCap w).fds = armed.fds
      ∧ (u.armedFor eventCap w).outstanding
        = armed.outstanding + Multiset.replicate n (uringTimeoutFlag, 0) := by
  rw [armedFor]
  by_cases hcap : eventCap = 0
  · rw [if_pos hcap]
    exact ⟨u, 0, .refl, rfl, by simp⟩
  · rw [if_neg hcap]
    obtain ⟨armed, harms, hadv, -⟩ := submitMissing_outcome u w.submit
    obtain ⟨n, hn⟩ := hadv.outstanding
    exact ⟨armed, n, harms, hadv.fds, hn⟩

theorem armedFor_sameRegistrations (u : Uring) (eventCap : Nat) (w : Waiting) :
    SameRegistrations u (u.armedFor eventCap w) := by
  rw [armedFor]
  by_cases hcap : eventCap = 0
  · rw [if_pos hcap]
    exact .refl u
  · rw [if_neg hcap]
    exact (submitMissing_frame u w.submit).1

/-- **Waiting accounts for every completion.** -/
theorem wait_processed (u : Uring) (eventCap : Nat) (timeoutMs : Int) (extArg : Bool)
    (w : Waiting) : ∃ processed, u.Processed (u.armedFor eventCap w) processed
      (u.wait eventCap timeoutMs extArg w) := by
  obtain ⟨processed, -, hprocessed, -⟩ := wait_work u eventCap timeoutMs extArg w
  exact ⟨processed, hprocessed⟩

/-- Which completions have no event. -/
theorem report_eq_none {cqe : Cqe} : u.report cqe = none
    ↔ isTimeoutUserData cqe.userData = true ∨ isCancelUserData cqe.userData = true
      ∨ ∀ i : Fin uringMaxFds, userDataFd cqe.userData = i →
        userDataGeneration cqe.userData ≠ (u.fds i).generation ∨ (u.fds i).used = false := by
  constructor
  · intro h
    by_contra hno
    push Not at hno
    obtain ⟨htime, hcancel, i, hfd, hgen, hused⟩ := hno
    have hsome : u.report cqe = some (pollEvent i cqe.res) := report_eq_some.mpr
      ⟨i, current_eq_some.mpr ⟨by simpa using htime, hfd, hgen⟩, by simpa using hcancel,
        by simpa using hused, rfl⟩
    rw [h] at hsome
    cases hsome
  · intro h
    rcases hrep : u.report cqe with _ | event
    · rfl
    · obtain ⟨i, hcur, hpoll, hused, -⟩ := report_eq_some.mp hrep
      obtain ⟨htime, hfd, hgen⟩ := current_eq_some.mp hcur
      rcases h with htime' | hcancel | hslot
      · exact absurd (htime.symm.trans htime') (by decide)
      · exact absurd (hpoll.symm.trans hcancel) (by decide)
      · rcases hslot i hfd with hstale | hunused
        · exact absurd hgen hstale
        · exact absurd (hused.symm.trans hunused) (by decide)

/-- **Completions are accounted for**: a removal keeps the queue, but for its own cancellation,
exactly if the array of saved completions does not fill up in the middle of a look at the ring.
Waiting takes completions from the front, settles each once, and reports them unless they are a
timeout or a cancellation, of a stale generation, or for a descriptor that is not in use. -/
theorem completions_accounted (u : Uring) :
    (∀ fd rounds ret v, drainUntilCancel fd rounds u = some (ret, v) →
        (u.Kept fd ret v ↔ ¬ u.Overruns fd rounds))
      ∧ (∀ eventCap timeoutMs extArg w, ∃ processed, u.Processed (u.armedFor eventCap w) processed
        (u.wait eventCap timeoutMs extArg w))
      ∧ ∀ cqe, u.report cqe = none
        ↔ isTimeoutUserData cqe.userData = true ∨ isCancelUserData cqe.userData = true
          ∨ ∀ i : Fin uringMaxFds, userDataFd cqe.userData = i →
            userDataGeneration cqe.userData ≠ (u.fds i).generation ∨ (u.fds i).used = false :=
  ⟨fun _ _ _ _ h => drainUntilCancel_kept h, wait_processed u, fun _ => report_eq_none⟩

/-- The ring holds two completions behind those that have been saved. -/
def twoBehind (pendingCqes : List Cqe) : Uring :=
  { Uring.init with pendingCqes, cq := [readyCqe, readyCqe] }

/-- The kernel posts nothing during a round. -/
def quietRound : Round := { posted := [], answer := { consumed := 0, result := .ok 0 }, later := [] }

/-- A look at the ring that ends the function. -/
theorem drainUntilCancel_quiet (hring : drainRing fd u.cq u = (some ret, v)) :
    drainUntilCancel fd [quietRound] u = some (ret, v) := by
  have hsome : u.cq ≠ [] := by
    intro hempty
    rw [hempty, drainRing] at hring
    cases hring
  have hposted : u.posts quietRound.posted = u := rfl
  have hlater : u.posts quietRound.later = u := rfl
  rw [drainUntilCancel, hposted]
  simp only [if_neg hsome, hlater, hring]

theorem twoBehind_drain {pendingCqes : List Cqe} (hlen : pendingCqes.length = 255) :
    drainUntilCancel 7 [quietRound] (twoBehind pendingCqes)
      = some (-1, { twoBehind pendingCqes with pendingCqes := pendingCqes ++ [readyCqe] }) := by
  have hother : ¬ (twoBehind pendingCqes).Matches 7 readyCqe := pollUserData_ne_cancel 5 7 1 0
  have htwo : (twoBehind pendingCqes).unmatched 7 [readyCqe, readyCqe] = [readyCqe, readyCqe] := by
    rw [(unmatched_cons_skip hother _).1, (unmatched_cons_skip hother _).1, unmatched_nil]
  have hroom : (twoBehind pendingCqes).room = 1 := by
    rw [room, twoBehind, hlen]
    rfl
  have hring : drainRing 7 [readyCqe, readyCqe] (twoBehind pendingCqes)
      = (some (-1), { twoBehind pendingCqes with pendingCqes := pendingCqes ++ [readyCqe] }) := by
    rcases drainRing_outcome (twoBehind pendingCqes) 7 [readyCqe, readyCqe] with
      ⟨-, hring⟩ | ⟨hfit, -⟩
    · rw [hring, hroom]
      rfl
    · rw [htwo, hroom] at hfit
      exact absurd hfit (by decide)
  exact drainUntilCancel_quiet hring

/-- The completion that fits is saved, and stays in the ring. -/
theorem twoBehind_duplicates {pendingCqes : List Cqe} (hlen : pendingCqes.length = 255) :
    ∃ v, drainUntilCancel 7 [quietRound] (twoBehind pendingCqes) = some (-1, v)
      ∧ v.queue.length = (twoBehind pendingCqes).queue.length + 1
      ∧ ¬ (twoBehind pendingCqes).Kept 7 (-1) v := by
  obtain ⟨v, hv⟩ : ∃ v, v = { twoBehind pendingCqes with pendingCqes := pendingCqes ++ [readyCqe] } :=
    ⟨_, rfl⟩
  have hposts : v.posted = (twoBehind pendingCqes).posted := by rw [hv]
  have hmore : v.queue.length = (twoBehind pendingCqes).queue.length + 1 := by
    rw [hv, queue, queue, List.length_append, List.length_append, List.length_append]
    exact Nat.add_right_comm _ _ _
  refine ⟨v, by rw [hv]; exact twoBehind_drain hlen, hmore, ?_⟩
  rintro ⟨new, hposted, hkept⟩
  rw [hposts, List.self_eq_append_right] at hposted
  rw [hposted, List.append_nil] at hkept
  rcases hkept with ⟨-, hsame, -⟩ | ⟨before, cqe, after, -, -, hsplit, hleft⟩
  · rw [hsame] at hmore
    omega
  · rw [hleft, hsplit] at hmore
    simp only [List.length_append, List.length_cons] at hmore
    omega

/-- A removal with one free entry in the array. -/
theorem completions_duplicated : ∃ v,
    drainUntilCancel 7 [quietRound] (twoBehind (List.replicate 255 readyCqe)) = some (-1, v)
      ∧ v.queue.length = (twoBehind (List.replicate 255 readyCqe)).queue.length + 1
      ∧ ¬ (twoBehind (List.replicate 255 readyCqe)).Kept 7 (-1) v :=
  twoBehind_duplicates List.length_replicate

end Uring

end C11Omo.IoUring
