import C11Omo.IoUring.Registrations

set_option autoImplicit false

/-! # One poll for each registration

The active flag of a descriptor in use stands for one outstanding poll of its current generation.
Arming a poll sets the flag, and the completion of the poll clears it. But the completion of a
cancellation clears it too: if a removal has failed and its cancellation is processed before the
poll, then the flag is clear while the poll is outstanding, and a second one is armed
(`two_polls_armed`). In runs without that the flag and the polls agree (`one_poll`).
-/

namespace C11Omo.IoUring

open C11Omo.Http2 C11Omo.Lib

namespace Registry

variable {r r' : Registry} {m : Move} {i j : Fin uringMaxFds} {tag : Nat × Nat}
  {s : Multiset (Nat × Nat)} {userData : Nat}

/-! ## Counting requests -/

/-- How many requests have a user_data. -/
def countOf (s : Multiset (Nat × Nat)) (userData : Nat) : Nat := (s.map Prod.fst).count userData

theorem countOf_add (s : Multiset (Nat × Nat)) (tag : Nat × Nat) (userData : Nat) :
    countOf (s + {tag}) userData = countOf s userData + if userData = tag.1 then 1 else 0 := by
  rw [countOf, countOf, Multiset.map_add, Multiset.count_add, Multiset.map_singleton,
    Multiset.count_singleton]

theorem countOf_erase (hmem : tag ∈ s) (userData : Nat) :
    countOf (s.erase tag) userData + (if userData = tag.1 then 1 else 0) = countOf s userData := by
  rw [← countOf_add, add_comm, Multiset.singleton_add, Multiset.cons_erase hmem]

theorem countOf_add_ne (h : tag.1 ≠ userData) : countOf (s + {tag}) userData = countOf s userData := by
  rw [countOf_add, if_neg h.symm, add_zero]

theorem countOf_erase_ne (hmem : tag ∈ s) (h : tag.1 ≠ userData) :
    countOf (s.erase tag) userData = countOf s userData := by
  rw [← countOf_erase hmem userData, if_neg h.symm, add_zero]

/-- The outstanding polls of the current generation of a descriptor. -/
def polls (r : Registry) (i : Fin uringMaxFds) : Nat :=
  countOf r.outstanding (pollUserData i (r.fds i).generation)

/-! ## One move -/

/-- The flag of a descriptor in use stands for one outstanding poll. -/
structure OnePoll (r : Registry) : Prop extends Wellformed r where
  used : ∀ i, (r.fds i).used = true → r.polls i = if (r.fds i).active then 1 else 0
  unused : ∀ i, (r.fds i).used = false → (r.fds i).active = false

/-- No poll is outstanding that is taken for one of the new registration; nothing is duplicated;
and no cancellation settles a descriptor whose poll is outstanding. -/
def Spares (r : Registry) : Move → Prop
  | .register i _ => (r.fds i).used = false →
      countOf r.outstanding (pollUserData i ((r.fds i).generation + 1)) = 0
  | .settle i tag => isCancelUserData tag.1 = true →
      ¬ ((r.fds i).used = true ∧ (r.fds i).active = true)
  | .duplicate _ => False
  | _ => True

theorem pollUserData_slot_ne (h : j ≠ i) (generation generation' : Nat) :
    pollUserData j generation ≠ pollUserData i generation' := by
  intro heq
  obtain ⟨hfd, -⟩ := (pollUserData_inj (slot_range j) (slot_range i)).mp heq
  exact h (Fin.ext (by exact_mod_cast hfd))

/-- What a poll in flight is taken to be for. -/
theorem Wellformed.poll_current (hr : r.Wellformed)
    (h : tag.1 = pollUserData i (r.fds i).generation) : r.Current i tag := by
  rw [Current, h, isTimeoutUserData_poll, userDataFd_poll (slot_range i),
    userDataGeneration_poll, hr.generation i, Nat.mod_mod]
  exact ⟨rfl, rfl, rfl⟩

/-- A completion for the current registration is of its poll or of a cancellation. -/
theorem Wellformed.current_kind (hr : r.Wellformed) (hmem : tag ∈ r.outstanding)
    (hcurrent : r.Current i tag) : tag.1 = pollUserData i (r.fds i).generation
      ∨ isCancelUserData tag.1 = true := by
  obtain ⟨htime, hfd, hgen⟩ := hcurrent
  rcases hr.kind tag hmem with rfl | ⟨j, hfor, -⟩
  · rw [timeoutTag, isTimeoutUserData_timeout] at htime
    cases htime
  · have hij : j = i := Fin.ext (by exact_mod_cast hfor.userDataFd.symm.trans hfd)
    subst hij
    rcases hfor with hpoll | hcancel
    · left
      rw [hpoll, userDataGeneration_poll] at hgen
      rw [hpoll, ← hgen, pollUserData_mod]
    · right
      rw [hcancel, isCancelUserData_cancel]

/-- A move that leaves the flags and the polls alone. -/
theorem OnePoll.of_same (hr : r.OnePoll) (hwell : r'.Wellformed)
    (hfds : ∀ i, (r'.fds i).used = (r.fds i).used ∧ (r'.fds i).active = (r.fds i).active)
    (hpolls : ∀ i, r'.polls i = r.polls i) : r'.OnePoll := by
  refine { hwell with used := ?_, unused := ?_ }
  · intro i hused
    rw [(hfds i).1] at hused
    rw [hpolls i, (hfds i).2]
    exact hr.used i hused
  · intro i hunused
    rw [(hfds i).1] at hunused
    rw [(hfds i).2]
    exact hr.unused i hunused

/-- A move at one descriptor that leaves the polls of all others alone. -/
theorem OnePoll.of_slot (hr : r.OnePoll) (hwell : r'.Wellformed) (i : Fin uringMaxFds)
    (hfds : ∀ j, j ≠ i → r'.fds j = r.fds j) (hpolls : ∀ j, j ≠ i → r'.polls j = r.polls j)
    (hused : (r'.fds i).used = true → r'.polls i = if (r'.fds i).active then 1 else 0)
    (hunused : (r'.fds i).used = false → (r'.fds i).active = false) : r'.OnePoll := by
  refine { hwell with used := ?_, unused := ?_ }
  · intro j hj
    by_cases hij : j = i
    · rw [hij] at hj ⊢
      exact hused hj
    · rw [hfds j hij] at hj ⊢
      rw [hpolls j hij]
      exact hr.used j hj
  · intro j hj
    by_cases hij : j = i
    · rw [hij] at hj ⊢
      exact hunused hj
    · rw [hfds j hij] at hj ⊢
      exact hr.unused j hj

/-- **Every move that spares the flags** keeps them in step with the polls. -/
theorem OnePoll.does (hr : r.OnePoll) (hgood : Spares r m) (h : Does m r r') : r'.OnePoll := by
  have hwell := hr.toWellformed.does h
  cases h with
  -- an entry that is in use keeps its generation; one that is not gets a new one
  | register i events =>
      refine hr.of_slot hwell i (fun j hj => setSlot_ne r hj _) (fun j hj => ?_) ?_ ?_
      · rw [polls, setSlot_ne r hj]
        rfl
      · intro _
        rw [polls, setSlot_same, registered]
        rcases hused : (r.fds i).used with _ | _
        · -- a new generation
          have hnone := hgood hused
          have hflag := hr.unused i hused
          simp only [Bool.false_eq_true, if_false, hflag]
          rw [pollUserData_mod]
          exact hnone
        · exact hr.used i hused
      · rw [setSlot_same, registered]
        rcases hused : (r.fds i).used with _ | _
        · intro hnot
          cases hnot
        · intro hnot
          rw [if_pos rfl] at hnot
          cases hnot
  -- the flag was clear, so there was no poll and now there is one
  | arm i hused hactive =>
      have hsame : (r.setSlot i { r.fds i with active := true }).fds i
          = { r.fds i with active := true } := setSlot_same r i _
      refine hr.of_slot hwell i (fun j hj => setSlot_ne r hj _) (fun j hj => ?_) ?_ ?_
      · have hfds : (r.setSlot i { r.fds i with active := true }).fds j = r.fds j := setSlot_ne r hj _
        rw [polls, hfds]
        exact countOf_add_ne (pollUserData_slot_ne (Ne.symm hj) _ _)
      · intro _
        have hzero := hr.used i hused
        rw [hactive] at hzero
        have hone : countOf (r.outstanding + {r.pollTag i})
            (pollUserData i (r.fds i).generation) = 1 := by
          rw [countOf_add, if_pos (show pollUserData i (r.fds i).generation = (r.pollTag i).1 from rfl)]
          exact congrArg (· + 1) hzero
        rw [polls, hsame]
        exact hone
      · intro hnot
        rw [hsame] at hnot
        exact absurd (hused.symm.trans hnot) (by decide)
  | timeout =>
      refine hr.of_same hwell (fun i => ⟨rfl, rfl⟩) fun i => countOf_add_ne fun heq => ?_
      have hkind := isTimeoutUserData_poll i (r.fds i).generation
      rw [← heq, timeoutTag, isTimeoutUserData_timeout] at hkind
      cases hkind
  | cancel i =>
      refine hr.of_same hwell (fun i => ⟨rfl, rfl⟩) fun j => countOf_add_ne fun heq => ?_
      exact pollUserData_ne_cancel _ _ _ _ heq.symm
  | ignore tag hmem hstale =>
      refine hr.of_same hwell (fun i => ⟨rfl, rfl⟩) fun i => countOf_erase_ne hmem fun heq => ?_
      exact hstale i (hr.poll_current heq)
  -- the completion of the current generation: one poll less, and the flag is cleared
  | settle i tag hmem hcurrent =>
      have hsame : (r.setSlot i { r.fds i with active := false }).fds i
          = { r.fds i with active := false } := setSlot_same r i _
      refine hr.of_slot hwell i (fun j hj => setSlot_ne r hj _) (fun j hj => ?_) ?_ ?_
      · -- the completion is not for another descriptor
        have hfds : (r.setSlot i { r.fds i with active := false }).fds j = r.fds j :=
          setSlot_ne r hj _
        rw [polls, hfds]
        refine countOf_erase_ne hmem fun heq => hj ?_
        have hfd := (hr.poll_current heq).2.1.symm.trans hcurrent.2.1
        exact Fin.ext (by exact_mod_cast hfd)
      · intro hused
        rw [hsame] at hused
        have hcount := hr.used i hused
        rw [polls, hsame]
        have herase := countOf_erase hmem (pollUserData i (r.fds i).generation)
        rcases hr.current_kind hmem hcurrent with hpoll | hcancel
        · -- the poll of the registration
          rw [if_pos hpoll.symm] at herase
          rw [polls] at hcount
          rcases hactive : (r.fds i).active with _ | _
          · rw [hactive] at hcount
            simp at hcount
            omega
          · rw [hactive] at hcount
            simp at hcount ⊢
            omega
        · -- a cancellation, and no poll is outstanding
          have hinactive : (r.fds i).active = false := by
            simpa using fun hactive => hgood hcancel ⟨hused, hactive⟩
          have hne : tag.1 ≠ pollUserData i (r.fds i).generation := by
            intro heq
            rw [heq, isCancelUserData_poll] at hcancel
            cases hcancel
          rw [hinactive] at hcount
          exact (countOf_erase_ne hmem hne).trans hcount
      · intro _
        rw [hsame]
  | answer i tag hmem hcancel =>
      refine hr.of_same hwell (fun i => ⟨rfl, rfl⟩) fun j => countOf_erase_ne hmem fun heq => ?_
      exact pollUserData_ne_cancel _ _ _ _ (heq.symm.trans hcancel)
  | duplicate tag => exact hgood.elim
  -- nothing is asked of the polls of an entry that is not in use
  | clear i =>
      have hsame : (r.setSlot i { r.fds i with active := false, used := false, events := 0 }).fds i
          = { r.fds i with active := false, used := false, events := 0 } := setSlot_same r i _
      refine hr.of_slot hwell i (fun j hj => setSlot_ne r hj _) (fun j hj => ?_) ?_ ?_
      · rw [polls, setSlot_ne r hj]
        rfl
      · intro hused
        rw [hsame] at hused
        cases hused
      · intro _
        rw [hsame]

theorem OnePoll.init : Uring.init.registry.OnePoll :=
  { Uring.Recent.init.toWellformed with
    used := fun i hused => by cases hused
    unused := fun _ _ => rfl }

end Registry

namespace Uring

open Registry

variable {u v : Uring} {i : Fin uringMaxFds} {c : Call}

/-! ## Runs -/

/-- The outstanding polls of the current generation of a descriptor: queued, in the kernel, in the
ring or saved. -/
def polls (u : Uring) (i : Fin uringMaxFds) : Nat :=
  countOf u.outstanding (pollUserData i (u.fds i).generation)

/-- What a call must not do. It does not register a descriptor for whose next generation a poll is
outstanding; a removal does not fill up the array of saved completions in the middle of a look at
the ring; and no cancellation is processed by `h2_io_wait` that is for the current generation of a
descriptor in use whose flag is set. -/
structure KeepsPolls (u : Uring) (c : Call) : Prop where
  register : ∀ fd i, Registers c fd → fdSlot fd = some i → (u.fds i).used = false →
    countOf u.outstanding (pollUserData i ((u.fds i).generation + 1)) = 0
  remove : ∀ fd answer rounds i, c = .remove fd answer rounds → fdSlot fd = some i →
    ¬ u.RemovalOverruns i answer rounds
  wait : ∀ eventCap timeoutMs extArg w, c = .wait eventCap timeoutMs extArg w →
    ∀ processed, u.Processed (u.armedFor eventCap w) processed (u.wait eventCap timeoutMs extArg w) →
      ∀ before cqe after i, processed = before ++ cqe :: after →
        ((u.armedFor eventCap w).settleAll before).current cqe = some i →
        isCancelUserData cqe.userData = true →
        ¬ ((((u.armedFor eventCap w).settleAll before).fds i).used = true
          ∧ (((u.armedFor eventCap w).settleAll before).fds i).active = true)

theorem KeepsPolls.meets (h : u.KeepsPolls c) : Meets Spares u c := by
  constructor
  · intro r m hquiet
    cases m with
    | register => cases hquiet
    | settle => cases hquiet
    | duplicate => cases hquiet
    | _ => trivial
  · intro fd i events hc hslot
    exact h.register fd i hc hslot
  · intro fd answer rounds i hc hslot hover
    exact absurd hover (h.remove fd answer rounds i hc hslot)
  · intro eventCap timeoutMs extArg w hc processed hprocessed before cqe after i hsplit hcur
    exact fun _ => h.wait eventCap timeoutMs extArg w hc processed hprocessed before cqe after i
      hsplit hcur

/-- **One poll for each registration**, in every run of calls that keep to the condition. -/
theorem one_poll (h : Runs KeepsPolls Uring.init u) (hused : (u.fds i).used = true) :
    ((u.fds i).active = true ↔ u.polls i = 1) ∧ u.polls i ≤ 1 := by
  have hone : u.registry.OnePoll := h.invariant
    (fun hallowed hret hr => (call_moves hallowed.meets hret).invariant
      (fun hgood hdoes hr => hr.does hgood hdoes) hr) OnePoll.init
  have hcount : u.polls i = if (u.fds i).active then 1 else 0 := hone.used i hused
  rcases hactive : (u.fds i).active with _ | _
  · rw [hactive] at hcount
    rw [hcount]
    simp
  · rw [hactive] at hcount
    rw [hcount]
    simp

theorem init_keepsPolls : Uring.init.KeepsPolls (.addConnection 5) where
  register := fun _ _ _ _ _ => rfl
  remove := fun fd answer rounds i hc => by cases hc
  wait := fun eventCap timeoutMs extArg w hc => by cases hc

theorem kernel_keepsPolls (u : Uring) (ps : List Post) : u.KeepsPolls (.kernel ps) where
  register := by rintro fd i (hc | hc | ⟨wantWrite, hc⟩) <;> cases hc
  remove := fun fd answer rounds i hc => by cases hc
  wait := fun eventCap timeoutMs extArg w hc => by cases hc

/-- A wait for which no cancellation is queued, and in which the kernel posts nothing. -/
theorem wait_keepsPolls {eventCap : Nat} {timeoutMs : Int} {extArg : Bool} {w : Waiting}
    (hqueue : ∀ cqe ∈ u.queue, isCancelUserData cqe.userData = false)
    (hposted : (u.wait eventCap timeoutMs extArg w).2.posted = u.posted) :
    u.KeepsPolls (.wait eventCap timeoutMs extArg w) where
  register := by rintro fd i (hc | hc | ⟨wantWrite, hc⟩) <;> cases hc
  remove := fun fd answer rounds i hc => by cases hc
  wait := by
    intro eventCap timeoutMs extArg w hc processed hprocessed before cqe after i hsplit _ hcancel
    injection hc with hcap htimeout hext hw
    subst hcap htimeout hext hw
    obtain ⟨new, hnew, hfront, -⟩ := hprocessed
    obtain rfl : new = [] := List.self_eq_append_right.mp (hposted.symm.trans hnew)
    have hmem : cqe ∈ u.queue := by
      rw [List.append_nil] at hfront
      rw [hfront, hsplit]
      simp
    rw [hqueue cqe hmem] at hcancel
    cases hcancel

/-- With every descriptor armed and one completion in the ring, `h2_io_wait` processes it. -/
theorem wait_processes {cqe : Cqe} (harmed : ∀ i, (u.fds i).used = true → (u.fds i).active = true)
    (hpend : u.pendingCqes = []) (hcq : u.cq = [cqe]) :
    u.call (.wait 1 0 true quietWaiting) = some { u.settle cqe with cq := [] } := by
  have hidle := submitMissing_idle harmed quietWaiting.submit
  have hworked : workOff u.report 1 [cqe] = ([cqe], []) := by
    rcases hreport : u.report cqe with _ | event <;> simp [workOff, hreport]
  have hring := @finishRing_eq [] 1 u [cqe] (Nat.zero_le 1)
  rw [List.length_nil, Nat.sub_zero, hworked] at hring
  have hsaved : u.finishSavedCqes [] 1 = ([], u) := by
    rw [finishSavedCqes, hpend, finishSavedLoop, ← hpend]
  have hdeliver : (u.deliver 1 []).2 = { u.settle cqe with cq := [] } := by
    rw [deliver, hsaved]
    simp only [posts, List.foldl_nil, hcq, hring]
    rfl
  have hwait : (u.wait 1 0 true quietWaiting).2 = (u.deliver 1 []).2 := by
    rw [wait_polls Nat.one_ne_zero true hidle]
    rfl
  rw [call, hwait, hdeliver]

/-- The poll of descriptor 5 has completed. -/
def ready : Uring :=
  { polling with
    inFlight := []
    cq := [readyCqe]
    posted := [readyCqe] }

/-- The poll that `h2_io_wait` has armed completes, the next `h2_io_wait` reports it, and the one after
that arms another. -/
theorem one_poll_armed : ∃ u, Runs KeepsPolls Uring.init u ∧ (u.fds 5).active = true
    ∧ ((u.fds 5).active = true ↔ u.polls 5 = 1) ∧ u.polls 5 ≤ 1 := by
  -- the first poll is armed
  obtain ⟨added, hadded, hpolling⟩ := @polling_reached (.addConnection 5) (Or.inl rfl)
  obtain rfl : (Uring.init.addConnection 5).2 = added := Option.some.inj hadded
  have hfirst : ((Uring.init.addConnection 5).2.wait 1 0 true takingWaiting).2 = polling :=
    Option.some.inj hpolling
  have hpolled : Runs KeepsPolls Uring.init polling :=
    (Runs.call .refl init_keepsPolls hadded).call
      (wait_keepsPolls (fun cqe hcqe => by cases hcqe) (by rw [hfirst]; rfl)) hpolling
  -- it completes, and is reported
  have hready : Runs KeepsPolls Uring.init ready :=
    hpolled.call (kernel_keepsPolls polling [{ pos := 0, res := 1, flags := 0 }]) rfl
  obtain ⟨idle, hidle⟩ : ∃ idle, idle
    = { ready.setSlot 5 { ready.fds 5 with active := false } with cq := [] } := ⟨_, rfl⟩
  have hreported : ready.call (.wait 1 0 true quietWaiting) = some idle := by
    have hcurrent : ready.current readyCqe = some 5 := current_eq_some.mpr (by decide)
    rw [@wait_processes ready readyCqe polling_armed rfl rfl, settle, hcurrent, hidle]
  have hsecond : (ready.wait 1 0 true quietWaiting).2 = idle := Option.some.inj hreported
  have hidled : Runs KeepsPolls Uring.init idle := by
    refine hready.call (wait_keepsPolls (fun cqe hcqe => ?_) (by rw [hsecond, hidle]; rfl)) hreported
    rw [List.mem_singleton.mp hcqe]
    decide
  -- the second one is armed
  have hothers : ∀ j, j ≠ 5 → (idle.fds j).used = true → (idle.fds j).active = true := by
    intro j hj hused
    have hsame : idle.fds j = polling.fds j := by
      rw [hidle]
      exact Function.update_of_ne hj _ _
    rw [hsame] at hused ⊢
    exact polling_armed j hused
  have harms := wait_arms (u := idle) (i := 5) (by rw [hidle]; rfl) (by rw [hidle]; rfl) hothers
    (by rw [hidle]; decide) (by rw [hidle]; rfl) (by rw [hidle])
  have hthird : (idle.wait 1 0 true takingWaiting).2
      = ((idle.arm 5).enter 1 0 takingWaiting.submit).2 := Option.some.inj harms
  have hnone : idle.queue = [] := by
    rw [hidle]
    rfl
  have hrun := hidled.call
    (wait_keepsPolls (fun cqe hcqe => by rw [hnone] at hcqe; cases hcqe) (by rw [hthird]; rfl)) harms
  have hused : (((idle.arm 5).enter 1 0 takingWaiting.submit).2.fds 5).used = true := by
    rw [hidle]
    rfl
  have hactive : (((idle.arm 5).enter 1 0 takingWaiting.submit).2.fds 5).active = true := by
    rw [hidle]
    rfl
  exact ⟨_, hrun, hactive, one_poll hrun hused⟩

/-- The kernel takes the cancellation, and then `io_uring_enter` fails while the program waits for
its completion. -/
def failingRound : Round :=
  { posted := [], answer := { consumed := 0, result := .error .other }, later := [] }

/-- The poll of descriptor 5 has been cancelled. -/
def cancelledCqe : Cqe :=
  { userData := cancelUserData 5 1, res := 0, flags := 0, registration := 1 }

/-- A removal of descriptor 5 has failed, and the kernel has completed the cancellation but not
the poll. -/
def leftBehind : Uring :=
  { polling with
    cq := [cancelledCqe]
    posted := [cancelledCqe]
    entered := [{ toSubmit := 1, minComplete := 0 }, { toSubmit := 1, minComplete := 0 },
      { toSubmit := 0, minComplete := 1 }] }

theorem leftBehind_reached : ∃ u, polling.call (.remove 5 { consumed := 1, result := .ok 1 }
      [failingRound]) = some u
    ∧ u.call (.kernel [{ pos := 1, res := 0, flags := 0 }]) = some leftBehind :=
  ⟨_, rfl, rfl⟩

/-- Processing the cancellation clears the flag. -/
theorem leftBehind_wait : leftBehind.call (.wait 1 0 true quietWaiting)
    = some { leftBehind.setSlot 5 { leftBehind.fds 5 with active := false } with cq := [] } := by
  have hcurrent : leftBehind.current cancelledCqe = some 5 := current_eq_some.mpr (by decide)
  rw [@wait_processes leftBehind cancelledCqe polling_armed rfl rfl, settle, hcurrent]

/-- The flag is clear, and another poll is armed while the first one is in the kernel. -/
theorem armed_twice {u : Uring}
    (hu : u = { leftBehind.setSlot 5 { leftBehind.fds 5 with active := false } with cq := [] }) :
    ∃ v, u.call (.wait 1 0 true takingWaiting) = some v ∧ v.polls 5 = 2 := by
  have hothers : ∀ j, j ≠ 5 → (u.fds j).used = true → (u.fds j).active = true := by
    intro j hj hused
    have hsame : u.fds j = polling.fds j := by
      rw [hu]
      exact Function.update_of_ne hj _ _
    rw [hsame] at hused ⊢
    exact polling_armed j hused
  have hwait := wait_arms (u := u) (i := 5) (by rw [hu]; rfl) (by rw [hu]; rfl) hothers
    (by rw [hu]; decide) (by rw [hu]; rfl) (by rw [hu])
  refine ⟨_, hwait, ?_⟩
  rw [polls, enter_outstanding, arm_outstanding, hu]
  decide

/-- The flag of descriptor 5 is clear although its poll is outstanding, and `h2_io_wait` arms
another one. -/
theorem two_polls_armed : ∃ u v, Runs (fun _ _ => True) Uring.init u ∧ (u.fds 5).used = true
    ∧ (u.fds 5).active = false ∧ u.polls 5 = 1
    ∧ u.call (.wait 1 0 true takingWaiting) = some v ∧ v.polls 5 = 2 := by
  obtain ⟨u, hu, hpolling⟩ := @polling_reached (.addConnection 5) (Or.inl rfl)
  obtain ⟨w, hremove, hkernel⟩ := leftBehind_reached
  have hrun : Runs (fun _ _ => True) Uring.init leftBehind :=
    (((Runs.call .refl trivial hu).call trivial hpolling).call trivial hremove).call trivial hkernel
  obtain ⟨v, hv, htwo⟩ := armed_twice rfl
  exact ⟨_, v, hrun.call trivial leftBehind_wait, rfl, rfl, rfl, hv, htwo⟩

end Uring

end C11Omo.IoUring
