import C11Omo.IoUring.Completions

set_option autoImplicit false

/-! # Removal

`h2_uring_drain_until_cancel` looks at the ring again and again until it finds the completion of its
own cancellation, and saves all completions before it. What it finds at each look is up to the
kernel (`looks`). It commits the head of the ring once for each look, so when the array of saved
completions fills up in the middle of a look, what has been saved stays in the ring as well
(`drainUntilCancel_outcome`).
-/

namespace C11Omo.IoUring

open C11Omo.Http2 C11Omo.Lib

namespace Uring

variable {u v : Uring} {fd : Fin uringMaxFds} {ret : Int}

/-- The completion of the cancellation that `h2_uring_drain_until_cancel` waits for. -/
def Matches (u : Uring) (fd : Fin uringMaxFds) (cqe : Cqe) : Prop :=
  cqe.userData = cancelUserData fd (u.fds fd).generation

instance (u : Uring) (fd : Fin uringMaxFds) (cqe : Cqe) : Decidable (u.Matches fd cqe) :=
  inferInstanceAs (Decidable (_ = _))

/-- The completions before the cancellation. -/
def unmatched (u : Uring) (fd : Fin uringMaxFds) (cqes : List Cqe) : List Cqe :=
  cqes.takeWhile fun cqe => cqe.userData ≠ cancelUserData fd (u.fds fd).generation

/-- The cancellation and what is behind it. -/
def fromMatch (u : Uring) (fd : Fin uringMaxFds) (cqes : List Cqe) : List Cqe :=
  cqes.dropWhile fun cqe => cqe.userData ≠ cancelUserData fd (u.fds fd).generation

/-- What `h2_io_remove` makes of the result of its cancellation. -/
def cancelStatus (cqe : Cqe) : Int := if cqe.res = -enoent ∨ cqe.res ≥ 0 then 0 else -1

theorem unmatched_append_fromMatch (u : Uring) (fd : Fin uringMaxFds) (cqes : List Cqe) :
    u.unmatched fd cqes ++ u.fromMatch fd cqes = cqes := List.takeWhile_append_dropWhile

theorem unmatched_not (u : Uring) (fd : Fin uringMaxFds) (cqes : List Cqe) :
    ∀ cqe ∈ u.unmatched fd cqes, ¬ u.Matches fd cqe := by
  intro cqe hcqe
  simpa [Matches] using List.mem_takeWhile_imp hcqe

theorem fromMatch_cons {cqes rest : List Cqe} {cqe : Cqe}
    (h : u.fromMatch fd cqes = cqe :: rest) : u.Matches fd cqe := by
  have hne : u.fromMatch fd cqes ≠ [] := by rw [h]; simp
  have hhead := List.head_dropWhile_not
    (fun cqe : Cqe => decide (cqe.userData ≠ cancelUserData fd (u.fds fd).generation)) hne
  have hcqe : (u.fromMatch fd cqes).head hne = cqe := by simp [h]
  have hat : (u.fromMatch fd cqes).head hne = (List.dropWhile (fun cqe : Cqe =>
      decide (cqe.userData ≠ cancelUserData fd (u.fds fd).generation)) cqes).head hne := rfl
  rw [← hat, hcqe] at hhead
  simpa [Matches] using hhead

/-- Which completions match depends on the table only. -/
theorem matches_congr (h : v.fds = u.fds) : v.Matches fd = u.Matches fd := by
  funext cqe
  rw [Matches, Matches, h]

theorem unmatched_congr (h : v.fds = u.fds) : v.unmatched fd = u.unmatched fd := by
  funext cqes
  rw [unmatched, unmatched, h]

theorem fromMatch_congr (h : v.fds = u.fds) : v.fromMatch fd = u.fromMatch fd := by
  funext cqes
  rw [fromMatch, fromMatch, h]

@[simp] theorem unmatched_nil (u : Uring) (fd : Fin uringMaxFds) : u.unmatched fd [] = [] := rfl

@[simp] theorem fromMatch_nil (u : Uring) (fd : Fin uringMaxFds) : u.fromMatch fd [] = [] := rfl

theorem unmatched_cons_match {cqe : Cqe} (h : u.Matches fd cqe) (rest : List Cqe) :
    u.unmatched fd (cqe :: rest) = [] ∧ u.fromMatch fd (cqe :: rest) = cqe :: rest := by
  rw [Matches] at h
  simp [unmatched, fromMatch, h]

theorem unmatched_cons_skip {cqe : Cqe} (h : ¬ u.Matches fd cqe) (rest : List Cqe) :
    u.unmatched fd (cqe :: rest) = cqe :: u.unmatched fd rest
      ∧ u.fromMatch fd (cqe :: rest) = u.fromMatch fd rest := by
  rw [Matches] at h
  simp [unmatched, fromMatch, h]

/-! ## One look at the ring -/

/-- The free entries in the array of saved completions. -/
def room (u : Uring) : Nat := uringSavedCqes - u.pendingCqes.length

/-- **The inner loop**: the array fills up before the cancellation, the cancellation is found, or
everything is saved. -/
theorem drainRing_outcome (u : Uring) (fd : Fin uringMaxFds) (cqes : List Cqe) :
    (u.room < (u.unmatched fd cqes).length
        ∧ drainRing fd cqes u
          = (some (-1), { u with pendingCqes := u.pendingCqes ++ cqes.take u.room }))
      ∨ (u.unmatched fd cqes).length ≤ u.room
        ∧ ((∃ cqe rest, u.fromMatch fd cqes = cqe :: rest
            ∧ drainRing fd cqes u = (some (cancelStatus cqe), { u with
              pendingCqes := u.pendingCqes ++ u.unmatched fd cqes
              cq := rest }))
          ∨ u.fromMatch fd cqes = []
            ∧ drainRing fd cqes u = (none, { u with
              pendingCqes := u.pendingCqes ++ cqes
              cq := [] })) := by
  induction cqes generalizing u with
  | nil => exact Or.inr ⟨Nat.zero_le _, Or.inr ⟨rfl, by simp [drainRing]⟩⟩
  | cons cqe rest ih =>
      -- the cancellation is not saved, every other completion is if there is room
      by_cases hmatch : u.Matches fd cqe
      · obtain ⟨hstop, hrest⟩ := unmatched_cons_match hmatch rest
        have hfound : drainRing fd (cqe :: rest) u
            = (some (cancelStatus cqe), { u with cq := rest }) := if_pos hmatch
        rw [hfound, hstop, hrest]
        exact Or.inr ⟨Nat.zero_le _, Or.inl ⟨cqe, rest, rfl, by rw [List.append_nil]⟩⟩
      · obtain ⟨hgo, hrest⟩ := unmatched_cons_skip hmatch rest
        have hnot : ¬ cqe.userData = cancelUserData fd (u.fds fd).generation := hmatch
        rw [hgo, hrest, List.length_cons, drainRing, if_neg hnot, saveCqe]
        by_cases hfull : u.pendingCqes.length ≥ uringSavedCqes
        · have hzero : u.room = 0 := Nat.sub_eq_zero_of_le hfull
          rw [if_pos hfull, hzero, List.take_zero, List.append_nil]
          exact Or.inl ⟨Nat.succ_pos _, rfl⟩
        · have hroom : u.room
              = room { u with pendingCqes := u.pendingCqes ++ [cqe] } + 1 := by
            rw [room, room, List.length_append, List.length_singleton]
            omega
          have hih := ih { u with pendingCqes := u.pendingCqes ++ [cqe] }
          simp only [List.append_assoc, List.singleton_append] at hih
          rw [if_neg hfull, hroom, List.take_succ_cons, Nat.add_lt_add_iff_right,
            Nat.add_le_add_iff_right]
          exact hih

/-! ## All looks at the ring -/

/-- What `h2_uring_drain_until_cancel` finds in the ring at each look, as long as it does not find
the cancellation: the kernel decides. -/
def looks : List Round → Uring → List (List Cqe)
  | [], _ => []
  | round :: rounds, u =>
      let u := u.posts round.posted
      match if u.cq = [] then round.answer.result else .ok 0 with
      | .error .eintr => looks rounds u
      | .error _ => []
      | .ok _ => (u.posts round.later).cq :: looks rounds { u.posts round.later with cq := [] }

/-- At some look there is room for some of the completions before the cancellation, but not for
all of them; `room` is the number of free entries before the first look. -/
def overrunsIn (u : Uring) (fd : Fin uringMaxFds) : (room : Nat) → List (List Cqe) → Prop
  | _, [] => False
  | room, cqes :: rest =>
      (0 < room ∧ room < (u.unmatched fd cqes).length)
        ∨ u.fromMatch fd cqes = [] ∧ u.overrunsIn fd (room - cqes.length) rest

/-- At some look the cancellation is found, and has succeeded, and at no look before it the
completions ahead of it have been more than there was room for. -/
def answeredIn (u : Uring) (fd : Fin uringMaxFds) : (room : Nat) → List (List Cqe) → Prop
  | _, [] => False
  | room, cqes :: rest =>
      (u.unmatched fd cqes).length ≤ room
        ∧ ((∃ cqe ∈ (u.fromMatch fd cqes).head?, cancelStatus cqe = 0)
          ∨ u.fromMatch fd cqes = [] ∧ u.answeredIn fd (room - cqes.length) rest)

/-- The array of saved completions fills up in the middle of a look at the ring. -/
def Overruns (u : Uring) (fd : Fin uringMaxFds) (rounds : List Round) : Prop :=
  u.overrunsIn fd u.room (looks rounds u)

/-- The kernel answers the cancellation, and the array has room for what comes before. -/
def Answered (u : Uring) (fd : Fin uringMaxFds) (rounds : List Round) : Prop :=
  u.answeredIn fd u.room (looks rounds u)

/-- How `h2_uring_drain_until_cancel` ends: with an error of `io_uring_enter` after everything has
been saved; with the cancellation taken out of the queue; or with a full array, and then `twice`
is in the array and in the ring. -/
inductive DrainEnd (u : Uring) (fd : Fin uringMaxFds) (rounds : List Round) (new : List Cqe)
    (v : Uring) : Int → Prop
  | failed (hsaved : v.pendingCqes = u.queue ++ new) (hcq : v.cq = [])
      (hrun : ¬ u.Overruns fd rounds) (hanswer : ¬ u.Answered fd rounds) :
      DrainEnd u fd rounds new v (-1)
  | found (before : List Cqe) (cqe : Cqe) (hmatch : u.Matches fd cqe)
      (hsaved : v.pendingCqes = before) (hqueue : u.queue ++ new = before ++ cqe :: v.cq)
      (hrun : ¬ u.Overruns fd rounds) (hanswer : u.Answered fd rounds ↔ cancelStatus cqe = 0) :
      DrainEnd u fd rounds new v (cancelStatus cqe)
  | full (before twice rest : List Cqe) (hsaved : v.pendingCqes = before ++ twice)
      (hcq : v.cq = twice ++ rest) (hqueue : u.queue ++ new = before ++ v.cq)
      (hhead : ∀ cqe ∈ v.cq.head?, ¬ u.Matches fd cqe)
      (hrun : u.Overruns fd rounds ↔ twice ≠ []) (hanswer : ¬ u.Answered fd rounds) :
      DrainEnd u fd rounds new v (-1)

theorem posts_congr (ps : List Post) (hcq : v.cq = u.cq) (hfl : v.inFlight = u.inFlight) :
    (v.posts ps).cq = (u.posts ps).cq ∧ (v.posts ps).inFlight = (u.posts ps).inFlight := by
  induction ps generalizing u v with
  | nil => exact ⟨hcq, hfl⟩
  | cons p ps ih =>
      refine ih ?_ ?_
      · rw [post, post, hfl]
        rcases u.inFlight[p.pos]? with _ | sqe
        · exact hcq
        · exact congrArg (· ++ _) hcq
      · rw [post, post, hfl]
        rcases u.inFlight[p.pos]? with _ | sqe
        · exact hfl
        · rfl

theorem looks_congr (rounds : List Round) (hcq : v.cq = u.cq) (hfl : v.inFlight = u.inFlight) :
    looks rounds v = looks rounds u := by
  induction rounds generalizing u v with
  | nil => rfl
  | cons round rounds ih =>
      obtain ⟨hcq', hfl'⟩ := posts_congr round.posted hcq hfl
      obtain ⟨hcq'', hfl''⟩ := posts_congr round.later hcq' hfl'
      have hrest := ih (u := { (u.posts round.posted).posts round.later with cq := [] })
        (v := { (v.posts round.posted).posts round.later with cq := [] }) rfl hfl''
      rw [looks, looks]
      simp only [hcq', hcq'']
      rw [ih hcq' hfl', hrest]

/-- A round in which the kernel does nothing before the look. -/
theorem looks_quiet (rounds : List Round) (u : Uring) :
    looks (⟨[], ⟨0, .ok 0⟩, []⟩ :: rounds) u = u.cq :: looks rounds { u with cq := [] } := by
  have hdef : looks (⟨[], ⟨0, .ok 0⟩, []⟩ :: rounds) u
      = match (if u.cq = [] then .ok 0 else .ok 0 : Except Errno Nat) with
        | .error .eintr => looks rounds u
        | .error _ => []
        | .ok _ => u.cq :: looks rounds { u with cq := [] } := rfl
  rw [hdef, ite_self]

/-- The matching completions are the same in both states. -/
theorem overrunsIn_congr (h : v.fds = u.fds) (room : Nat) (cqess : List (List Cqe)) :
    v.overrunsIn fd room cqess ↔ u.overrunsIn fd room cqess := by
  induction cqess generalizing room with
  | nil => rfl
  | cons cqes rest ih =>
      rw [overrunsIn, overrunsIn, ih, unmatched_congr h, fromMatch_congr h]

theorem answeredIn_congr (h : v.fds = u.fds) (room : Nat) (cqess : List (List Cqe)) :
    v.answeredIn fd room cqess ↔ u.answeredIn fd room cqess := by
  induction cqess generalizing room with
  | nil => rfl
  | cons cqes rest ih =>
      rw [answeredIn, answeredIn, ih, unmatched_congr h, fromMatch_congr h]

/-- A full array is not overrun later. -/
theorem not_overrunsIn_zero (u : Uring) (fd : Fin uringMaxFds) (cqess : List (List Cqe)) :
    ¬ u.overrunsIn fd 0 cqess := by
  induction cqess with
  | nil => exact id
  | cons cqes rest ih =>
      rw [overrunsIn, Nat.zero_sub]
      rintro (⟨hlt, -⟩ | ⟨-, hrest⟩)
      · exact lt_irrefl 0 hlt
      · exact ih hrest

/-- An end of the rest of the rounds is an end of all of them. -/
theorem DrainEnd.prepend {rounds rounds' : List Round} {new new' : List Cqe} {w : Uring}
    (hruns : u.Overruns fd rounds ↔ v.Overruns fd rounds')
    (hans : u.Answered fd rounds ↔ v.Answered fd rounds') (hfds : v.fds = u.fds)
    (hqueue : v.queue = u.queue ++ new) (h : DrainEnd v fd rounds' new' w ret) :
    DrainEnd u fd rounds (new ++ new') w ret := by
  have hall : u.queue ++ (new ++ new') = v.queue ++ new' := by rw [hqueue, List.append_assoc]
  have hsame : v.Matches fd = u.Matches fd := matches_congr hfds
  cases h with
  | failed hsaved hcq hrun hanswer =>
      exact .failed (by rw [hsaved, hall]) hcq (mt hruns.mp hrun) (mt hans.mp hanswer)
  | found before cqe hmatch hsaved hafter hrun hanswer =>
      exact .found before cqe (hsame ▸ hmatch) hsaved (by rw [hall, hafter]) (mt hruns.mp hrun)
        (hans.trans hanswer)
  | full before twice rest hsaved hcq hafter hhead hrun hanswer =>
      exact .full before twice rest hsaved hcq (by rw [hall, hafter])
        (fun cqe hcqe => hsame ▸ hhead cqe hcqe) (hruns.trans hrun) (mt hans.mp hanswer)

/-- A round before the look at the ring. -/
theorem DrainEnd.skip {rounds rounds' : List Round} {new new' : List Cqe} {w : Uring}
    (hlooks : looks rounds u = looks rounds' v) (hfds : v.fds = u.fds)
    (hpend : v.pendingCqes = u.pendingCqes) (hqueue : v.queue = u.queue ++ new)
    (h : DrainEnd v fd rounds' new' w ret) : DrainEnd u fd rounds (new ++ new') w ret := by
  have hroom : v.room = u.room := by rw [room, room, hpend]
  refine h.prepend ?_ ?_ hfds hqueue
  · rw [Overruns, Overruns, hlooks, hroom, overrunsIn_congr hfds]
  · rw [Answered, Answered, hlooks, hroom, answeredIn_congr hfds]

/-- **One look at the ring** ends the function, or saves everything. -/
theorem drainEnd_look {rounds rounds' : List Round} (hlooks : looks rounds u
      = u.cq :: looks rounds' { u with cq := [] }) :
    (∃ ret v, drainRing fd u.cq u = (some ret, v) ∧ v.posted = u.posted ∧ v.fds = u.fds
        ∧ v.sq = u.sq ∧ v.inFlight = u.inFlight ∧ DrainEnd u fd rounds [] v ret)
      ∨ drainRing fd u.cq u = (none, { u with pendingCqes := u.queue, cq := [] })
        ∧ ∀ new v ret, DrainEnd { u with pendingCqes := u.queue, cq := [] } fd rounds' new v ret →
          DrainEnd u fd rounds new v ret := by
  have hsplit := u.unmatched_append_fromMatch fd u.cq
  have hruns : u.Overruns fd rounds ↔ (0 < u.room ∧ u.room < (u.unmatched fd u.cq).length)
      ∨ u.fromMatch fd u.cq = []
        ∧ u.overrunsIn fd (u.room - u.cq.length) (looks rounds' { u with cq := [] }) := by
    rw [Overruns, hlooks, overrunsIn]
  have hans : u.Answered fd rounds ↔ (u.unmatched fd u.cq).length ≤ u.room
      ∧ ((∃ cqe ∈ (u.fromMatch fd u.cq).head?, cancelStatus cqe = 0)
        ∨ u.fromMatch fd u.cq = []
          ∧ u.answeredIn fd (u.room - u.cq.length) (looks rounds' { u with cq := [] })) := by
    rw [Answered, hlooks, answeredIn]
  rcases drainRing_outcome u fd u.cq with ⟨hfull, hring⟩ | ⟨hfit, ⟨cqe, rest, hfrom, hring⟩ | ⟨hfrom, hring⟩⟩
  · -- the array is full
    have hlen : (u.unmatched fd u.cq).length ≤ u.cq.length :=
      (List.takeWhile_sublist _).length_le
    have hcut := List.take_append_drop u.room u.cq
    refine Or.inl ⟨_, _, hring, rfl, rfl, rfl, rfl, ?_⟩
    refine .full u.pendingCqes (u.cq.take u.room) (u.cq.drop u.room) rfl hcut.symm ?_ ?_ ?_ ?_
    · rw [List.append_nil, queue]
    · intro cqe hcqe
      rcases hun : u.unmatched fd u.cq with _ | ⟨first, tail⟩
      · rw [hun] at hfull
        exact absurd hfull (Nat.not_lt_zero _)
      · rw [hun] at hsplit
        have hfirst : cqe = first := by
          rw [← hsplit] at hcqe
          exact (Option.mem_some_iff.mp hcqe).symm
        exact u.unmatched_not fd u.cq cqe (by rw [hun, hfirst]; exact List.mem_cons_self)
    · have htwice : u.cq.take u.room ≠ [] ↔ 0 < u.room := by
        rw [← List.length_pos_iff, List.length_take]
        omega
      rw [hruns, htwice]
      constructor
      · rintro (⟨hpos, -⟩ | ⟨hnil, hrest⟩)
        · exact hpos
        · -- without the cancellation the look covers the whole ring
          rw [hnil, List.append_nil] at hsplit
          rw [hsplit] at hfull
          rw [Nat.sub_eq_zero_of_le hfull.le] at hrest
          exact absurd hrest (not_overrunsIn_zero u fd _)
      · exact fun hpos => Or.inl ⟨hpos, hfull⟩
    · rw [hans]
      exact fun h => absurd h.1 (not_le.mpr hfull)
  · -- the cancellation is found
    refine Or.inl ⟨_, _, hring, rfl, rfl, rfl, rfl, ?_⟩
    rw [hfrom] at hsplit hruns hans
    refine .found (u.pendingCqes ++ u.unmatched fd u.cq) cqe (fromMatch_cons hfrom) rfl ?_ ?_ ?_
    · rw [List.append_nil, queue, List.append_assoc, hsplit]
    · rw [hruns]
      rintro (⟨-, hlt⟩ | ⟨hnil, -⟩)
      · omega
      · cases hnil
    · rw [hans]
      simp [hfit]
  · -- everything is saved
    refine Or.inr ⟨hring, fun new v ret h => ?_⟩
    rw [hfrom, List.append_nil] at hsplit
    obtain ⟨w, hw⟩ : ∃ w : Uring, w = { u with pendingCqes := u.queue, cq := [] } := ⟨_, rfl⟩
    rw [← hw] at h
    have hfds : w.fds = u.fds := by rw [hw]
    have hroom : w.room = u.room - u.cq.length := by
      rw [hw, room, room, queue, List.length_append]
      omega
    have hsame : looks rounds' w = looks rounds' { u with cq := [] } := by
      rw [hw]
      exact looks_congr rounds' rfl rfl
    have hqueue : w.queue = u.queue ++ [] := by rw [hw, queue]
    refine DrainEnd.prepend ?_ ?_ hfds hqueue h
    · rw [hruns, Overruns, hsame, hroom, overrunsIn_congr hfds]
      constructor
      · rintro (⟨-, hlt⟩ | ⟨-, hrest⟩)
        · omega
        · exact hrest
      · exact fun hrest => Or.inr ⟨hfrom, hrest⟩
    · rw [hans, Answered, hsame, hroom, answeredIn_congr hfds, hfrom]
      simp [hfit]

/-- Nothing is submitted while the program waits. -/
theorem enter_zero (u : Uring) (minComplete : Nat) (answer : Entered) :
    u.enter 0 minComplete answer
      = (answer.result, { u with entered := u.entered ++ [{ toSubmit := 0, minComplete }] }) := by
  simp [enter]

/-- One round, up to the look at the ring. -/
theorem drainUntilCancel_cons (fd : Fin uringMaxFds) (round : Round) (rounds : List Round)
    (u : Uring) : ∃ entered, drainUntilCancel fd (round :: rounds) u
      = match if (u.posts round.posted).cq = [] then round.answer.result else .ok 0 with
        | .error .eintr => drainUntilCancel fd rounds { u.posts round.posted with entered }
        | .error _ => some (-1, { u.posts round.posted with entered })
        | .ok _ =>
            match drainRing fd (posts { u.posts round.posted with entered } round.later).cq
              (posts { u.posts round.posted with entered } round.later) with
            | (some ret, u) => some (ret, u)
            | (none, u) => drainUntilCancel fd rounds u := by
  -- the round after `io_uring_enter`, which is called if the ring is empty
  have hround : ∀ r : Except Errno Nat × Uring,
      (if (u.posts round.posted).cq = [] then (u.posts round.posted).enter 0 1 round.answer
        else (.ok 0, u.posts round.posted)) = r →
      drainUntilCancel fd (round :: rounds) u
        = match r.1 with
          | .error .eintr => drainUntilCancel fd rounds r.2
          | .error _ => some (-1, r.2)
          | .ok _ =>
              match drainRing fd (posts r.2 round.later).cq (posts r.2 round.later) with
              | (some ret, u) => some (ret, u)
              | (none, u) => drainUntilCancel fd rounds u := by
    rintro _ rfl
    rfl
  by_cases hempty : (u.posts round.posted).cq = []
  · refine ⟨(u.posts round.posted).entered ++ [{ toSubmit := 0, minComplete := 1 }], ?_⟩
    rw [hround _ (if_pos hempty), enter_zero, if_pos hempty]
  · refine ⟨(u.posts round.posted).entered, ?_⟩
    rw [hround _ (if_neg hempty), if_neg hempty]

/-- **`h2_uring_drain_until_cancel`**, whenever it returns. -/
theorem drainUntilCancel_outcome {rounds : List Round} {u : Uring}
    (h : drainUntilCancel fd rounds u = some (ret, v)) :
    ∃ new, v.posted = u.posted ++ new ∧ v.fds = u.fds ∧ v.sq = u.sq
      ∧ Completes u.inFlight new v.inFlight ∧ DrainEnd u fd rounds new v ret := by
  -- on the rounds of the loop: each enters the kernel if the ring is empty, then looks at the ring
  induction rounds generalizing u with
  | nil => cases h
  | cons round rounds ih =>
      obtain ⟨entered, hdrain⟩ := drainUntilCancel_cons fd round rounds u
      obtain ⟨new, inFlight, hcomp, hposts⟩ := posts_eq u round.posted
      have hlooks : looks (round :: rounds) u
          = match if (u.posts round.posted).cq = [] then round.answer.result else .ok 0 with
            | .error .eintr => looks rounds (u.posts round.posted)
            | .error _ => []
            | .ok _ => ((u.posts round.posted).posts round.later).cq
              :: looks rounds { (u.posts round.posted).posts round.later with cq := [] } := rfl
      rw [hdrain] at h
      -- the state after `io_uring_enter`, if it is called
      obtain ⟨e, he⟩ : ∃ e : Uring, e = { u.posts round.posted with entered } := ⟨_, rfl⟩
      have hecq : e.cq = (u.posts round.posted).cq := by rw [he]
      have hefl : e.inFlight = (u.posts round.posted).inFlight := by rw [he]
      rw [← he, ← hecq] at h
      rw [← hecq] at hlooks
      have hequeue : e.queue = u.queue ++ new := by
        rw [he, hposts, queue, queue, List.append_assoc]
      have hpend : e.pendingCqes = u.pendingCqes := by rw [he, hposts]
      have hfds : e.fds = u.fds := by rw [he, hposts]
      have hsq : e.sq = u.sq := by rw [he, hposts]
      have hposted : e.posted = u.posted ++ new := by rw [he, hposts]
      have hecomp : Completes u.inFlight new e.inFlight := by
        rw [he, hposts]
        exact hcomp
      rcases hres : (if e.cq = [] then round.answer.result else .ok 0) with err | n
      · rw [hres] at h hlooks
        have hempty : e.cq = [] := by
          by_contra hne
          rw [if_neg hne] at hres
          cases hres
        by_cases hintr : err = .eintr
        · -- the call was interrupted
          rw [hintr] at h hlooks
          obtain ⟨new', hposted', hfds', hsq', hcomp', hend⟩ := ih h
          refine ⟨new ++ new', ?_, hfds'.trans hfds, hsq'.trans hsq, hecomp.trans hcomp', ?_⟩
          · rw [hposted', hposted, List.append_assoc]
          · exact hend.skip (hlooks.trans (looks_congr rounds hecq hefl).symm) hfds hpend hequeue
        · -- the call has failed, and the ring is empty
          have hnone : looks (round :: rounds) u = [] := by
            rw [hlooks]
            cases err <;> first | rfl | exact absurd rfl hintr
          have hexit : ret = -1 ∧ v = e := by
            have hsome : some (-1, e) = some (ret, v) := by
              rw [← h]
              cases err <;> first | rfl | exact absurd rfl hintr
            cases hsome
            exact ⟨rfl, rfl⟩
          obtain ⟨rfl, rfl⟩ := hexit
          refine ⟨new, hposted, hfds, hsq, hecomp, .failed ?_ hempty ?_ ?_⟩
          · rw [← hequeue, queue, hempty, List.append_nil]
          · rw [Overruns, hnone]
            exact id
          · rw [Answered, hnone]
            exact id
      · rw [hres] at h hlooks
        obtain ⟨new', inFlight', hcomp', hposts'⟩ := posts_eq e round.later
        -- the look at the ring, in a state whose rounds begin with it
        obtain ⟨l, hl⟩ : ∃ l, e.posts round.later = l := ⟨_, rfl⟩
        obtain ⟨hlcq, hlfl⟩ := posts_congr round.later hecq hefl
        rw [hl] at h hposts' hlcq hlfl
        have hsame : looks (round :: rounds) u = looks (⟨[], ⟨0, .ok 0⟩, []⟩ :: rounds) l := by
          have hrest : looks rounds { l with cq := [] }
              = looks rounds { (u.posts round.posted).posts round.later with cq := [] } :=
            looks_congr rounds rfl hlfl
          rw [hlooks, looks_quiet, hlcq, hrest]
        have hlqueue : l.queue = u.queue ++ (new ++ new') := by
          calc l.queue = e.pendingCqes ++ (e.cq ++ new') := by rw [hposts', queue]
            _ = e.queue ++ new' := (List.append_assoc _ _ _).symm
            _ = u.queue ++ (new ++ new') := by rw [hequeue, List.append_assoc]
        have hlpend : l.pendingCqes = u.pendingCqes := by rw [hposts', hpend]
        have hlfds : l.fds = u.fds := by rw [hposts', hfds]
        have hlsq : l.sq = u.sq := by rw [hposts', hsq]
        have hlposted : l.posted = u.posted ++ (new ++ new') := by
          rw [hposts', hposted, List.append_assoc]
        have hlcomp : Completes u.inFlight (new ++ new') l.inFlight := by
          rw [hposts']
          exact hecomp.trans hcomp'
        rcases @drainEnd_look l fd _ rounds (looks_quiet rounds l) with
          ⟨ret', w, hring, hwposted, hwfds, hwsq, hwfl, hend⟩ | ⟨hring, hback⟩
        · rw [hring] at h
          cases h
          refine ⟨new ++ new', ?_, hwfds.trans hlfds, hwsq.trans hlsq, ?_, ?_⟩
          · rw [hwposted, hlposted]
          · rw [hwfl]
            exact hlcomp
          · have hskip := hend.skip hsame hlfds hlpend hlqueue
            rwa [List.append_nil] at hskip
        · rw [hring] at h
          obtain ⟨new'', hposted'', hfds'', hsq'', hcomp'', hend⟩ := ih h
          refine ⟨new ++ new' ++ new'', ?_, hfds''.trans hlfds, hsq''.trans hlsq,
            hlcomp.trans hcomp'', (hback _ _ _ hend).skip hsame hlfds hlpend hlqueue⟩
          calc v.posted = l.posted ++ new'' := hposted''
            _ = u.posted ++ (new ++ new' ++ new'') := by rw [hlposted, List.append_assoc]

/-- What becomes of the outstanding requests: only the cancellation is taken, and only completions
that the array had no more room for are there twice. -/
theorem drainUntilCancel_outstanding {rounds : List Round} {u : Uring}
    (h : drainUntilCancel fd rounds u = some (ret, v)) : ∃ gone more,
    v.outstanding + gone = u.outstanding + more
      ∧ (∀ tag ∈ gone, tag.1 = cancelUserData fd (u.fds fd).generation)
      ∧ (∀ tag ∈ more, tag ∈ u.outstanding) ∧ (¬ u.Overruns fd rounds → more = 0) := by
  obtain ⟨new, -, -, hsq, hcomp, hend⟩ := drainUntilCancel_outcome h
  cases hend with
  | failed hsaved hcq hrun hanswer =>
      refine ⟨0, 0, outstanding_completes hsq hcomp ?_, by simp, by simp, fun _ => rfl⟩
      rw [queue, hsaved, hcq, List.append_nil]
  -- the completion of the cancellation is taken, the others are where they were or saved
  | found before cqe hmatch hsaved hqueue hrun hanswer =>
      refine ⟨{cqe.tag}, 0, outstanding_completes hsq hcomp ?_, ?_, by simp, fun _ => rfl⟩
      · rw [hqueue, queue, hsaved]
        simp only [List.map_append, List.map_cons, ← Multiset.coe_add, ← Multiset.cons_coe,
          ← Multiset.singleton_add]
        abel
      · intro tag htag
        rw [Multiset.mem_singleton.mp htag]
        exact hmatch
  | full before twice rest hsaved hcq hqueue hhead hrun hanswer =>
      have hmore := @outstanding_completes u v new 0 (twice.map Cqe.tag) hsq hcomp (by
        rw [hqueue, queue, hsaved, hcq]
        simp only [List.map_append, ← Multiset.coe_add]
        abel)
      refine ⟨0, twice.map Cqe.tag, hmore, by simp, ?_, ?_⟩
      · -- what is there twice was in the queue
        have hall := @outstanding_completes u { v with pendingCqes := before } new 0 0 hsq hcomp (by
          rw [hqueue, queue])
        intro tag htag
        rw [add_zero, add_zero] at hall
        rw [← hall, outstanding, queue, hcq]
        simp only [List.map_append, ← Multiset.coe_add, Multiset.mem_add]
        exact Or.inr (Or.inr (Or.inl htag))
      · intro hnot
        rw [hrun, not_not] at hnot
        rw [hnot]
        rfl

/-- A removal succeeds with a completion of its cancellation. -/
theorem drainUntilCancel_zero {rounds : List Round} {u : Uring}
    (h : drainUntilCancel fd rounds u = some (0, v)) :
    ∃ cqe, u.Matches fd cqe ∧ cancelStatus cqe = 0 ∧ cqe.tag ∈ u.outstanding := by
  obtain ⟨new, -, -, hsq, hcomp, hend⟩ := drainUntilCancel_outcome h
  obtain ⟨status, hstatus⟩ : ∃ status : Int, status = 0 := ⟨0, rfl⟩
  rw [← hstatus] at hend
  cases hend with
  | failed => cases hstatus
  | found before cqe hmatch hsaved hqueue hrun hanswer =>
      refine ⟨cqe, hmatch, hstatus, ?_⟩
      have hall := @outstanding_completes u { v with pendingCqes := before ++ [cqe] } new 0 0 hsq
        hcomp (by rw [hqueue, queue, List.append_assoc, List.singleton_append])
      rw [add_zero, add_zero] at hall
      rw [← hall, outstanding, queue]
      simp only [List.map_append, List.map_cons, List.map_nil, ← Multiset.coe_add, Multiset.mem_add]
      exact Or.inr (Or.inl (Or.inr (Multiset.mem_coe.mpr List.mem_cons_self)))
  | full => cases hstatus

/-! ## `h2_io_remove` -/

/-- The request that cancels the poll of a descriptor. -/
def cancelSqe (u : Uring) (i : Fin uringMaxFds) : Sqe where
  opcode := .pollRemove
  fd := 0
  pollEvents := 0
  addr := pollUserData i (u.fds i).generation
  userData := cancelUserData i (u.fds i).generation
  registration := (u.fds i).registrations

/-- The state in which `h2_io_remove` waits for its cancellation. -/
def cancelling (u : Uring) (i : Fin uringMaxFds) (answer : Entered) : Uring :=
  (enter { u with sq := u.sq ++ [u.cancelSqe i] } 1 0 answer).2

/-- A descriptor is removed from the table. -/
def clear (u : Uring) (i : Fin uringMaxFds) : Uring :=
  u.setSlot i { u.fds i with active := false, used := false, events := 0 }

theorem cancelling_fds (u : Uring) (i : Fin uringMaxFds) (answer : Entered) :
    (u.cancelling i answer).fds = u.fds := rfl

theorem cancelling_outstanding (u : Uring) (i : Fin uringMaxFds) (answer : Entered) :
    (u.cancelling i answer).outstanding = u.outstanding + {(u.cancelSqe i).tag} := by
  rw [cancelling, enter_outstanding]
  simp only [outstanding, queue, List.map_append, List.map_cons, List.map_nil, ← Multiset.coe_add,
    Multiset.coe_singleton]
  abel

/-- The array of saved completions fills up in the middle of a look at the ring, while `h2_io_remove`
waits for its cancellation. -/
def RemovalOverruns (u : Uring) (i : Fin uringMaxFds) (answer : Entered) (rounds : List Round) :
    Prop :=
  (u.fds i).used = true ∧ (u.fds i).active = true ∧ u.sq.length < uringEntries
    ∧ (∃ n, answer.result = .ok n) ∧ (u.cancelling i answer).Overruns i rounds

/-- The ways in which `h2_io_remove` returns for a descriptor in range. -/
inductive RemoveEnd (u : Uring) (i : Fin uringMaxFds) (answer : Entered) (rounds : List Round) :
    Int → Uring → Prop
  | unused (hused : (u.fds i).used = false) : RemoveEnd u i answer rounds 0 u
  | inactive (hused : (u.fds i).used = true) (hactive : (u.fds i).active = false) :
      RemoveEnd u i answer rounds 0 (u.clear i)
  | noRoom (hused : (u.fds i).used = true) (hactive : (u.fds i).active = true)
      (hfull : uringEntries ≤ u.sq.length) : RemoveEnd u i answer rounds (-1) u
  | rejected (hused : (u.fds i).used = true) (hactive : (u.fds i).active = true)
      (hroom : u.sq.length < uringEntries) {err : Errno} (hres : answer.result = .error err) :
      RemoveEnd u i answer rounds (-1) (u.cancelling i answer)
  | cancelled (hused : (u.fds i).used = true) (hactive : (u.fds i).active = true)
      (hroom : u.sq.length < uringEntries) {n : Nat} (hres : answer.result = .ok n) {v : Uring}
      (hdrain : drainUntilCancel i rounds (u.cancelling i answer) = some (0, v)) :
      RemoveEnd u i answer rounds 0 (v.clear i)
  | failed (hused : (u.fds i).used = true) (hactive : (u.fds i).active = true)
      (hroom : u.sq.length < uringEntries) {n : Nat} (hres : answer.result = .ok n) {v : Uring}
      {status : Int} (hstatus : status ≠ 0)
      (hdrain : drainUntilCancel i rounds (u.cancelling i answer) = some (status, v)) :
      RemoveEnd u i answer rounds (-1) v

/-- **`h2_uring_cancel_active_poll`** with room for its request. -/
theorem cancelActivePoll_eq {u : Uring} {i : Fin uringMaxFds} (hactive : (u.fds i).active = true)
    (hroom : u.sq.length < uringEntries) (answer : Entered) (rounds : List Round) :
    u.cancelActivePoll i answer rounds
      = match answer.result with
        | .error _ => some (-1, u.cancelling i answer)
        | .ok _ => drainUntilCancel i rounds (u.cancelling i answer) := by
  rw [cancelActivePoll, if_neg (by simp [hactive]), getSqe, if_neg (not_le.mpr hroom)]
  simp only [enter]
  rcases answer.result with err | n <;> rfl

/-- **`h2_io_remove`**, whenever it returns. -/
theorem remove_outcome {u : Uring} {fd : Int} {i : Fin uringMaxFds} {answer : Entered}
    {rounds : List Round} (hslot : fdSlot fd = some i)
    (h : u.remove fd answer rounds = some (ret, v)) : RemoveEnd u i answer rounds ret v := by
  rw [remove, hslot] at h
  simp only at h
  rcases hused : (u.fds i).used with _ | _
  · rw [if_pos hused] at h
    cases h
    exact .unused hused
  · rw [if_neg (by simp [hused])] at h
    -- without a poll there is nothing to cancel
    rcases hactive : (u.fds i).active with _ | _
    · rw [cancelActivePoll, if_pos hactive] at h
      cases h
      exact .inactive hused hactive
    · -- the cancellation needs an entry, a kernel that takes it, and a loop that finds its completion
      by_cases hroom : u.sq.length < uringEntries
      · rw [cancelActivePoll_eq hactive hroom] at h
        rcases hres : answer.result with err | n
        · rw [hres] at h
          cases h
          exact .rejected hused hactive hroom hres
        · rw [hres] at h
          simp only at h
          rcases hdrain : drainUntilCancel i rounds (u.cancelling i answer) with _ | ⟨status, w⟩
          · rw [hdrain] at h
            cases h
          · rw [hdrain] at h
            simp only at h
            by_cases hstatus : status = 0
            · rw [if_neg (not_not.mpr hstatus)] at h
              cases h
              rw [hstatus] at hdrain
              exact .cancelled hused hactive hroom hres hdrain
            · rw [if_pos hstatus] at h
              cases h
              exact .failed hused hactive hroom hres hstatus hdrain
      · rw [cancelActivePoll, if_neg (by simp [hactive]), getSqe, if_pos (not_lt.mp hroom)] at h
        cases h
        exact .noRoom hused hactive (not_lt.mp hroom)

end Uring

end C11Omo.IoUring
