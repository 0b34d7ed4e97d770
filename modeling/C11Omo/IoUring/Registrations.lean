import C11Omo.IoUring.Runs

set_option autoImplicit false

/-! # Registrations and stale completions

Each registration of a descriptor that is not in use moves its generation on, and the generations
wrap around after 2^30 registrations. As long as no completion is outstanding for that long, a
completion that is taken to be for the current registration is for it (`current_registration`), so
what `h2_io_wait` reports has been asked for since the descriptor was registered
(`stale_completions_dropped`).
-/

namespace C11Omo.IoUring

open C11Omo.Http2 C11Omo.Lib

namespace Registry

variable {r r' : Registry} {m : Move} {i j : Fin uringMaxFds} {tag : Nat × Nat}

/-! ## What requests are outstanding -/

/-- A request is for a registration of a descriptor: its poll or the cancellation of that. -/
def For (i : Fin uringMaxFds) (tag : Nat × Nat) : Prop :=
  tag.1 = pollUserData i tag.2 ∨ tag.1 = cancelUserData i tag.2

/-- The generation counts the registrations within its 30 bits, and every outstanding request is a
timeout or for a registration so far. -/
structure Wellformed (r : Registry) : Prop where
  generation : ∀ i, (r.fds i).generation = (r.fds i).registrations % 2 ^ 30
  kind : ∀ tag ∈ r.outstanding,
    tag = timeoutTag ∨ ∃ i, For i tag ∧ tag.2 ≤ (r.fds i).registrations

theorem For.isTimeout (h : For i tag) : isTimeoutUserData tag.1 = false := by
  rcases h with h | h <;> simp [h]

theorem For.userDataFd (h : For i tag) : userDataFd tag.1 = i := by
  rcases h with h | h
  · rw [h, userDataFd_poll (slot_range i)]
  · rw [h, userDataFd_cancel (slot_range i)]

theorem For.userDataGeneration (h : For i tag) : userDataGeneration tag.1 = tag.2 % 2 ^ 30 := by
  rcases h with h | h
  · rw [h, userDataGeneration_poll]
  · rw [h, userDataGeneration_cancel]

/-- A request is for one descriptor only. -/
theorem For.unique (h : For i tag) (h' : For j tag) : i = j := by
  have hfd := h.userDataFd.symm.trans h'.userDataFd
  exact Fin.ext (by exact_mod_cast hfd)

theorem not_for_timeout (i : Fin uringMaxFds) : ¬ For i timeoutTag := by
  intro h
  have htime := h.isTimeout
  rw [timeoutTag, isTimeoutUserData_timeout] at htime
  cases htime

theorem pollUserData_mod (fd : Int) (registrations : Nat) :
    pollUserData fd (registrations % 2 ^ 30) = pollUserData fd registrations := by
  rw [pollUserData_eq, pollUserData_eq, Nat.mod_mod]

theorem Wellformed.pollTag_for (h : r.Wellformed) (i : Fin uringMaxFds) : For i (r.pollTag i) := by
  left
  rw [pollTag, h.generation i, pollUserData_mod]

theorem Wellformed.cancelTag_for (h : r.Wellformed) (i : Fin uringMaxFds) :
    For i (r.cancelTag i) := by
  right
  rw [cancelTag, h.generation i, cancelUserData_eq, cancelUserData_eq, pollUserData_mod]

/-! ## One move -/

/-- A registration of a descriptor that is not in use. -/
def Move.Renews (r : Registry) (i : Fin uringMaxFds) : Move → Prop
  | .register j _ => j = i ∧ (r.fds i).used = false
  | _ => False

/-- **The count of registrations** goes up by one if the descriptor is registered anew, and the
generation follows it; otherwise both stay. -/
theorem Does.registrations (h : Does m r r') (i : Fin uringMaxFds) :
    (m.Renews r i ∧ (r'.fds i).registrations = (r.fds i).registrations + 1
        ∧ (r'.fds i).generation = ((r.fds i).generation + 1) % 2 ^ 30)
      ∨ ¬ m.Renews r i ∧ (r'.fds i).registrations = (r.fds i).registrations
        ∧ (r'.fds i).generation = (r.fds i).generation := by
  have hkeep : ∀ (j : Fin uringMaxFds) (state : FdState),
      state.registrations = (r.fds j).registrations → state.generation = (r.fds j).generation →
        ((r.setSlot j state).fds i).registrations = (r.fds i).registrations
          ∧ ((r.setSlot j state).fds i).generation = (r.fds i).generation := by
    intro j state hreg hgen
    by_cases hij : i = j
    · rw [hij, setSlot_same]
      exact ⟨hreg, hgen⟩
    · rw [setSlot_ne r hij]
      exact ⟨rfl, rfl⟩
  cases h with
  | register j events =>
      by_cases hij : i = j
      · subst hij
        rw [setSlot_same, registered]
        -- only an entry that is not in use gets a new registration
        rcases hused : (r.fds i).used with _ | _
        · exact Or.inl ⟨⟨rfl, hused⟩, rfl, rfl⟩
        · exact Or.inr ⟨fun hnew => absurd (hused.symm.trans hnew.2) (by decide), rfl, rfl⟩
      · rw [setSlot_ne r hij]
        exact Or.inr ⟨fun hnew => hij hnew.1.symm, rfl, rfl⟩
  | arm j => exact Or.inr ⟨id, hkeep j _ rfl rfl⟩
  | timeout => exact Or.inr ⟨id, rfl, rfl⟩
  | cancel => exact Or.inr ⟨id, rfl, rfl⟩
  | ignore => exact Or.inr ⟨id, rfl, rfl⟩
  | settle j => exact Or.inr ⟨id, hkeep j _ rfl rfl⟩
  | answer => exact Or.inr ⟨id, rfl, rfl⟩
  | duplicate => exact Or.inr ⟨id, rfl, rfl⟩
  | clear j => exact Or.inr ⟨id, hkeep j _ rfl rfl⟩

/-- **New requests** are timeouts, polls and cancellations of current registrations. -/
theorem Does.outstanding (h : Does m r r') (htag : tag ∈ r'.outstanding) :
    tag ∈ r.outstanding ∨ tag = timeoutTag
      ∨ (∃ i, (tag = r.pollTag i ∨ tag = r.cancelTag i)
        ∧ (r'.fds i).registrations = (r.fds i).registrations) := by
  have hregs := fun i => h.registrations i
  cases h with
  | register => exact Or.inl htag
  | arm i =>
      rcases Multiset.mem_add.mp htag with hold | hnew
      · exact Or.inl hold
      · have hkeep := (hregs i).resolve_left fun hrenews => hrenews.1
        exact Or.inr (Or.inr ⟨i, Or.inl (Multiset.mem_singleton.mp hnew), hkeep.2.1⟩)
  | timeout =>
      rcases Multiset.mem_add.mp htag with hold | hnew
      · exact Or.inl hold
      · exact Or.inr (Or.inl (Multiset.mem_singleton.mp hnew))
  | cancel i =>
      rcases Multiset.mem_add.mp htag with hold | hnew
      · exact Or.inl hold
      · exact Or.inr (Or.inr ⟨i, Or.inr (Multiset.mem_singleton.mp hnew), rfl⟩)
  | ignore => exact Or.inl (Multiset.mem_of_mem_erase htag)
  | settle => exact Or.inl (Multiset.mem_of_mem_erase htag)
  | answer => exact Or.inl (Multiset.mem_of_mem_erase htag)
  | duplicate other hmem =>
      rcases Multiset.mem_add.mp htag with hold | hnew
      · exact Or.inl hold
      · rw [Multiset.mem_singleton.mp hnew]
        exact Or.inl hmem
  | clear => exact Or.inl htag

theorem Does.registrations_le (h : Does m r r') (i : Fin uringMaxFds) :
    (r.fds i).registrations ≤ (r'.fds i).registrations := by
  rcases h.registrations i with ⟨-, hup, -⟩ | ⟨-, hsame, -⟩
  · omega
  · exact hsame.ge

theorem Wellformed.does (hr : r.Wellformed) (h : Does m r r') : r'.Wellformed := by
  constructor
  · intro i
    rcases h.registrations i with ⟨-, hregs, hgen⟩ | ⟨-, hregs, hgen⟩
    · rw [hgen, hregs, hr.generation i, Nat.mod_add_mod]
    · rw [hgen, hregs, hr.generation i]
  · intro tag htag
    rcases h.outstanding htag with hold | htime | ⟨i, hnew, hsame⟩
    · rcases hr.kind tag hold with htime | ⟨i, hfor, hle⟩
      · exact Or.inl htime
      · exact Or.inr ⟨i, hfor, hle.trans (h.registrations_le i)⟩
    · exact Or.inl htime
    · refine Or.inr ⟨i, ?_⟩
      rcases hnew with rfl | rfl
      · exact ⟨hr.pollTag_for i, hsame.ge⟩
      · exact ⟨hr.cancelTag_for i, hsame.ge⟩

/-! ## Registrations within the range of the generations -/

/-- A descriptor is not registered anew for the 2^30th time while one of its requests is
outstanding. -/
def Rationed (r : Registry) (m : Move) : Prop :=
  ∀ i, m.Renews r i → ∀ tag ∈ r.outstanding, For i tag →
    (r.fds i).registrations + 1 < tag.2 + 2 ^ 30

/-- All outstanding requests are for one of the last 2^30 registrations. -/
structure Recent (r : Registry) : Prop extends Wellformed r where
  recent : ∀ tag ∈ r.outstanding, ∀ i, For i tag → (r.fds i).registrations < tag.2 + 2 ^ 30

theorem Recent.does (hr : r.Recent) (hgood : Rationed r m) (h : Does m r r') : r'.Recent := by
  refine { hr.toWellformed.does h with recent := ?_ }
  intro tag htag i hfor
  rcases h.outstanding htag with hold | htime | ⟨j, hnew, hsame⟩
  · rcases h.registrations i with ⟨hrenews, hregs, -⟩ | ⟨-, hregs, -⟩
    · rw [hregs]
      exact hgood i hrenews tag hold hfor
    · rw [hregs]
      exact hr.recent tag hold i hfor
  · rw [htime] at hfor
    exact absurd hfor (not_for_timeout i)
  · -- a new request is for the current registration of its descriptor
    have hj : For j tag ∧ tag.2 = (r.fds j).registrations := by
      rcases hnew with rfl | rfl
      · exact ⟨hr.pollTag_for j, rfl⟩
      · exact ⟨hr.cancelTag_for j, rfl⟩
    obtain rfl := hfor.unique hj.1
    rw [hsame, hj.2]
    omega

/-- **A completion that is taken to be for the current registration of a descriptor is for it.** -/
theorem Recent.current_registration (hr : r.Recent) (htag : tag ∈ r.outstanding)
    (hcurrent : r.Current i tag) : For i tag ∧ tag.2 = (r.fds i).registrations := by
  obtain ⟨htime, hfd, hgen⟩ := hcurrent
  rcases hr.kind tag htag with rfl | ⟨j, hfor, hle⟩
  · rw [timeoutTag, isTimeoutUserData_timeout] at htime
    cases htime
  · have hij : j = i := Fin.ext (by exact_mod_cast hfor.userDataFd.symm.trans hfd)
    subst hij
    have hrecent := hr.recent tag htag j hfor
    rw [hfor.userDataGeneration, hr.generation j] at hgen
    refine ⟨hfor, ?_⟩
    omega

end Registry

namespace Uring

open Registry

variable {u v a b : Uring} {i : Fin uringMaxFds} {fd : Int} {c : Call}

/-! ## Runs -/

/-- A call does not register a descriptor for the 2^30th time while one of its requests is
outstanding. -/
def RegistersInTime (u : Uring) (c : Call) : Prop :=
  ∀ fd i, Registers c fd → fdSlot fd = some i → (u.fds i).used = false →
    ∀ tag ∈ u.outstanding, For i tag → (u.fds i).registrations + 1 < tag.2 + 2 ^ 30

theorem rationed_quiet (r : Registry) (m : Move) (hquiet : Quiet m) : Rationed r m := by
  intro i hrenews
  cases m with
  | register => cases hquiet
  | _ => cases hrenews

theorem RegistersInTime.meets (h : u.RegistersInTime c) : Meets Rationed u c := by
  constructor
  · exact rationed_quiet
  · rintro fd i events hc hslot j ⟨rfl, hunused⟩
    exact h fd i hc hslot hunused
  · intro fd answer rounds i _ _ _ r tag j hrenews
    cases hrenews
  · intro eventCap timeoutMs extArg w _ processed _ before cqe after i _ _ outstanding j hrenews
    cases hrenews

theorem Recent.init : Uring.init.registry.Recent where
  generation := fun _ => rfl
  kind := fun tag htag => by cases htag
  recent := fun tag htag => by cases htag

/-- A run keeps the outstanding requests within the range of the generations, and the
registrations are only counted up. -/
theorem Runs.recent (h : Runs RegistersInTime u v) (hu : u.registry.Recent) : v.registry.Recent :=
  h.invariant (fun hallowed hret hrecent =>
    (call_moves hallowed.meets hret).invariant (fun hgood hdoes hr => hr.does hgood hdoes) hrecent) hu

theorem Runs.registrations_le (h : Runs RegistersInTime u v) (i : Fin uringMaxFds) :
    (u.fds i).registrations ≤ (v.fds i).registrations := by
  refine h.invariant (P := fun w => (u.fds i).registrations ≤ (w.fds i).registrations) ?_ le_rfl
  intro w w' c hallowed hret hle
  refine (call_moves hallowed.meets hret).invariant
    (P := fun r => (u.fds i).registrations ≤ (r.fds i).registrations) ?_ hle
  intro r r' m _ hdoes hr
  exact hr.trans (hdoes.registrations_le i)

/-- Events come from polls of current registrations, and a completion of another registration
changes nothing. -/
def DropsStale (u : Uring) (cqes : List Cqe) : Prop :=
  ∀ cqe ∈ cqes,
    (∀ event, u.report cqe = some event → ∃ i : Fin uringMaxFds, event = pollEvent i cqe.res
      ∧ cqe.userData = pollUserData i cqe.registration
      ∧ cqe.registration = (u.fds i).registrations)
    ∧ ∀ i, For i cqe.tag → cqe.registration ≠ (u.fds i).registrations →
      ∀ v, SameRegistrations u v → v.settle cqe = v

theorem wait_dropsStale (hu : u.registry.Recent) (eventCap : Nat) (timeoutMs : Int)
    (extArg : Bool) (w : Waiting) : ∃ processed, u.Processed (u.armedFor eventCap w) processed
        (u.wait eventCap timeoutMs extArg w) ∧ u.DropsStale processed := by
  obtain ⟨processed, hprocessed, hsubmits⟩ :=
    wait_submits rationed_quiet u eventCap timeoutMs extArg w
  have hr := hsubmits.invariant (fun hgood hdoes hr => hr.does hgood hdoes) hu
  have hsame := armedFor_sameRegistrations u eventCap w
  -- the registration that a completion is taken to be for is its own
  have hcurrent : ∀ cqe ∈ processed, ∀ i, u.current cqe = some i →
      For i cqe.tag ∧ cqe.registration = (u.fds i).registrations := by
    intro cqe hcqe i hcur
    rw [← hsame.current] at hcur
    rw [← (hsame i).2.2]
    exact hr.current_registration
      (Multiset.mem_add.mpr (Or.inr (List.mem_map_of_mem hcqe))) (current_eq_some.mp hcur)
  refine ⟨processed, hprocessed, fun cqe hcqe => ⟨?_, ?_⟩⟩
  · intro event hevent
    obtain ⟨i, hcur, hpoll, -, rfl⟩ := report_eq_some.mp hevent
    obtain ⟨hfor, hreg⟩ := hcurrent cqe hcqe i hcur
    refine ⟨i, rfl, hfor.resolve_right fun hcancel => ?_, hreg⟩
    replace hcancel : cqe.userData = cancelUserData i cqe.registration := hcancel
    rw [hcancel, isCancelUserData_cancel] at hpoll
    cases hpoll
  · intro i hfor hstale v hv
    have hnone : v.current cqe = none := by
      rw [hv.current]
      rcases hcur : u.current cqe with _ | j
      · rfl
      · obtain ⟨hfor', hreg⟩ := hcurrent cqe hcqe j hcur
        rw [hfor.unique hfor'] at hstale
        exact absurd hreg hstale
    rw [settle, hnone]

/-- A completion that a removal takes to be for its cancellation is for the current
registration. -/
theorem cancelling_current (hu : u.registry.Recent) (answer : Entered) {cqe : Cqe}
    (hmem : cqe.tag ∈ (u.cancelling i answer).outstanding)
    (hmatch : (u.cancelling i answer).Matches i cqe) :
    cqe.registration = (u.fds i).registrations := by
  have hkind : ∀ tag ∈ (u.cancelling i answer).outstanding, tag = u.registry.cancelTag i
      ∨ tag ∈ u.outstanding := by
    intro tag htag
    rw [cancelling_outstanding] at htag
    rcases Multiset.mem_add.mp htag with hold | hnew
    · exact Or.inr hold
    · exact Or.inl (Multiset.mem_singleton.mp hnew)
  rcases hkind cqe.tag hmem with hnew | hold
  · exact congrArg Prod.snd hnew
  · have hgen := hu.generation i
    have hcurrent : u.registry.Current i cqe.tag := by
      replace hmatch : cqe.tag.1 = cancelUserData i (u.fds i).generation := hmatch
      rw [Current, hmatch, userDataFd_cancel (slot_range i), userDataGeneration_cancel]
      refine ⟨isTimeoutUserData_cancel _ _, rfl, ?_⟩
      show (u.registry.fds i).generation % 2 ^ 30 = (u.registry.fds i).generation
      rw [hgen, Nat.mod_mod]
    exact (hu.current_registration hold hcurrent).2

/-- After a removal that returns `0` the descriptor is not registered. -/
theorem remove_unused {answer : Entered} {rounds : List Round} (hslot : fdSlot fd = some i)
    (h : u.remove fd answer rounds = some (0, v)) : (v.fds i).used = false := by
  have hclear : ∀ w : Uring, ((w.clear i).fds i).used = false := by
    intro w
    rw [clear, setSlot_same]
  obtain ⟨ret, hret⟩ : ∃ ret : Int, ret = 0 := ⟨0, rfl⟩
  rw [← hret] at h
  cases remove_outcome hslot h with
  | unused hused => exact hused
  | inactive => exact hclear u
  | noRoom => cases hret
  | rejected => cases hret
  | cancelled => exact hclear _
  | failed => cases hret

/-- What is packed into the user_data of a poll and of a cancellation is read back, and they are
told apart from each other and from timeouts. -/
def ReadsBack (fd : Int) (generation : Nat) : Prop :=
  (userDataFd (pollUserData fd generation) = fd
      ∧ userDataGeneration (pollUserData fd generation) = generation % 2 ^ 30
      ∧ isCancelUserData (pollUserData fd generation) = false
      ∧ isTimeoutUserData (pollUserData fd generation) = false)
    ∧ userDataFd (cancelUserData fd generation) = fd
      ∧ userDataGeneration (cancelUserData fd generation) = generation % 2 ^ 30
      ∧ isCancelUserData (cancelUserData fd generation) = true
      ∧ isTimeoutUserData (cancelUserData fd generation) = false

/-- **Stale completions are dropped.** When a descriptor is registered that is not in use, all its
outstanding requests are for earlier registrations than the one that follows. In every later state
the events of `h2_io_wait` come from polls of current registrations, completions of other
registrations change nothing, and a removal ends with a cancellation of the current one. -/
theorem stale_completions_dropped (hstart : Runs RegistersInTime Uring.init a)
    (hadd : Registers c fd) (hslot : fdSlot fd = some i) (hunused : (a.fds i).used = false)
    (hintime : a.RegistersInTime c) (hcall : a.call c = some b) (hrun : Runs RegistersInTime b u) :
    (∀ tag ∈ a.outstanding, For i tag → tag.2 < (u.fds i).registrations)
      ∧ (∀ eventCap timeoutMs extArg w, ∃ processed, u.Processed (u.armedFor eventCap w) processed
          (u.wait eventCap timeoutMs extArg w) ∧ u.DropsStale processed)
      ∧ (∀ answer cqe j, cqe.tag ∈ (u.cancelling j answer).outstanding →
          (u.cancelling j answer).Matches j cqe → cqe.registration = (u.fds j).registrations)
      ∧ (∀ answer rounds v, u.remove fd answer rounds = some (0, v) → (v.fds i).used = false)
      ∧ isTimeoutUserData uringTimeoutFlag = true
      ∧ ∀ fd generation, -2 ^ 31 ≤ fd ∧ fd < 2 ^ 31 → ReadsBack fd generation := by
  have ha := hstart.recent Recent.init
  have hu : u.registry.Recent := ((hstart.call hintime hcall).trans hrun).recent Recent.init
  refine ⟨?_, wait_dropsStale hu, fun answer cqe j => cancelling_current hu answer,
    fun answer rounds v => remove_unused hslot, isTimeoutUserData_timeout, ?_⟩
  · intro tag htag hfor
    have hnew : (b.fds i).registrations = (a.fds i).registrations + 1 := by
      obtain ⟨events, hb⟩ := hadd.call_eq (u := a)
      rw [hcall, hslot] at hb
      rw [Option.some.inj hb, setSlot_same, registered, if_neg (by simp [hunused])]
    have hlater := hrun.registrations_le i
    -- what is outstanding is a timeout, or a request of a registration up to that one
    rcases ha.kind tag htag with rfl | ⟨j, hj, hle⟩
    · exact absurd hfor (not_for_timeout i)
    · obtain rfl := hfor.unique hj
      replace hle : tag.2 ≤ (a.fds i).registrations := hle
      omega
  · intro fd generation hfd
    exact ⟨⟨userDataFd_poll hfd generation, userDataGeneration_poll fd generation,
        isCancelUserData_poll fd generation, isTimeoutUserData_poll fd generation⟩,
      userDataFd_cancel hfd generation, userDataGeneration_cancel fd generation,
      isCancelUserData_cancel fd generation, isTimeoutUserData_cancel fd generation⟩

theorem init_inTime (c : Call) : Uring.init.RegistersInTime c := by
  intro fd i _ _ _ tag htag
  cases htag

theorem wait_inTime (u : Uring) (eventCap : Nat) (timeoutMs : Int) (extArg : Bool) (w : Waiting) :
    u.RegistersInTime (.wait eventCap timeoutMs extArg w) := by
  rintro fd i (hc | hc | ⟨wantWrite, hc⟩) <;> cases hc

theorem remove_inTime (u : Uring) (fd : Int) (answer : Entered) (rounds : List Round) :
    u.RegistersInTime (.remove fd answer rounds) := by
  rintro fd' i (hc | hc | ⟨wantWrite, hc⟩) <;> cases hc

/-- The kernel takes the one request that is submitted. -/
def takingWaiting : Waiting :=
  { submit := { consumed := 1, result := .ok 1 }
    posted := []
    wait := { consumed := 0, result := .ok 0 }
    later := [] }

/-- With nothing to process, `h2_io_wait` only arms the one poll that is missing. -/
theorem wait_arms (hused : (u.fds i).used = true) (hactive : (u.fds i).active = false)
    (hothers : ∀ j, j ≠ i → (u.fds j).used = true → (u.fds j).active = true)
    (hroom : u.sq.length < uringEntries) (hpend : u.pendingCqes = []) (hcq : u.cq = []) :
    u.call (.wait 1 0 true takingWaiting)
      = some ((u.arm i).enter 1 0 takingWaiting.submit).2 := by
  have hone := submitMissing_one hused hactive hothers hroom takingWaiting.submit
  obtain ⟨armed, harmed⟩ : ∃ armed, (u.arm i).enter 1 0 takingWaiting.submit = (.ok 1, armed) :=
    ⟨_, rfl⟩
  have hnothing : armed.pendingCqes = [] ∧ armed.cq = [] := by
    have hadv := enter_advances (u.arm i) 1 0 takingWaiting.submit
    have hsame : armed = ((u.arm i).enter 1 0 takingWaiting.submit).2 := by rw [harmed]
    rw [hsame]
    exact ⟨hadv.pendingCqes.trans hpend, hcq⟩
  have hdeliver : (armed.deliver 1 []).2 = { armed with pendingCqes := [], cq := [] } := by
    rw [deliver, finishSavedCqes, hnothing.1, finishSavedLoop]
    simp only [posts, List.foldl_nil, hnothing.2]
    rfl
  have hsame : ({ armed with pendingCqes := [], cq := [] } : Uring) = armed := by
    obtain ⟨hnosaved, hnone⟩ := hnothing
    cases armed
    simp only at hnosaved hnone
    rw [hnosaved, hnone]
  rw [call, wait_polls Nat.one_ne_zero true (hone.trans harmed), harmed]
  show some (armed.deliver 1 []).2 = some armed
  rw [hdeliver, hsame]

/-- Descriptor 5 is registered for the first time, and its poll is in the kernel. -/
def polling : Uring :=
  { Uring.init with
    inFlight := [{
      opcode := .pollAdd
      fd := 5
      pollEvents := 0x2019
      addr := 0
      userData := pollUserData 5 1
      registration := 1 }]
    fds := Function.update Uring.init.fds 5
      { used := true, active := true, events := 0x2019, generation := 1, registrations := 1 }
    entered := [{ toSubmit := 1, minComplete := 0 }] }

/-- A registered descriptor gets its poll. -/
theorem polling_reached (hc : c = .addConnection 5 ∨ c = .modConnection 5 false) :
    ∃ u, Uring.init.call c = some u ∧ u.call (.wait 1 0 true takingWaiting) = some polling := by
  obtain ⟨u, hu⟩ : ∃ u, u = (Uring.init.addConnection 5).2 := ⟨_, rfl⟩
  have hcall : Uring.init.call c = some u := by
    rcases hc with rfl | rfl
    · rw [hu]
      rfl
    · rw [hu]
      rfl
  refine ⟨u, hcall, ?_⟩
  have hothers : ∀ j, j ≠ 5 → (u.fds j).used = true → (u.fds j).active = true := by
    intro j hj hused
    have hinit : u.fds j = Uring.init.fds j := by
      rw [hu]
      exact Function.update_of_ne hj _ _
    rw [hinit] at hused
    cases hused
  have hwait := wait_arms (u := u) (i := 5) (by rw [hu]; rfl) (by rw [hu]; rfl) hothers
    (by rw [hu]; decide) (by rw [hu]; rfl) (by rw [hu]; rfl)
  have hfds : (u.arm 5).fds = polling.fds := by
    rw [hu]
    exact Function.update_idem _ _ _
  have harm : ((u.arm 5).enter 1 0 takingWaiting.submit).2
      = { polling with fds := (u.arm 5).fds } := by
    rw [hu]
    rfl
  rw [hwait, harm, hfds]

/-- No other descriptor is registered. -/
theorem polling_armed (i : Fin uringMaxFds) (h : (polling.fds i).used = true) :
    (polling.fds i).active = true := by
  by_cases hi : i = 5
  · rw [hi]
    rfl
  · have hinit : polling.fds i = Uring.init.fds i := Function.update_of_ne hi _ _
    rw [hinit] at h
    cases h

/-- While descriptor 5 is removed its poll completes, and the kernel finds nothing to cancel. -/
def removingRound : Round :=
  { posted := [{ pos := 0, res := 1, flags := 0 }, { pos := 0, res := -enoent, flags := 0 }]
    answer := { consumed := 0, result := .ok 0 }
    later := [] }

/-- Descriptor 5 has been removed, and the completion of its poll has been saved. -/
def removed : Uring :=
  { polling.clear 5 with
    inFlight := []
    pendingCqes := [readyCqe]
    posted := [readyCqe, { userData := cancelUserData 5 1, res := -enoent, flags := 0, registration := 1 }]
    entered := [{ toSubmit := 1, minComplete := 0 }, { toSubmit := 1, minComplete := 0 }] }

theorem removed_reached :
    polling.call (.remove 5 { consumed := 1, result := .ok 1 } [removingRound]) = some removed := rfl

/-- It is registered once more. -/
def again : Uring := (removed.addConnection 5).2

theorem removed_ran : Runs RegistersInTime Uring.init removed := by
  obtain ⟨u, hu, hpolling⟩ := @polling_reached (.addConnection 5) (Or.inl rfl)
  have hadded : Runs RegistersInTime Uring.init u := Runs.call .refl (init_inTime _) hu
  have hpolled : Runs RegistersInTime Uring.init polling :=
    hadded.call (wait_inTime u 1 0 true takingWaiting) hpolling
  exact hpolled.call (remove_inTime polling 5 _ _) removed_reached

theorem removed_inTime : removed.RegistersInTime (.addConnection 5) := by
  intro fd i hc hslot _ tag htag _
  have hfd : fd = 5 := by
    rcases hc with hc | hc | ⟨wantWrite, hc⟩ <;> cases hc
    rfl
  rw [hfd, show fdSlot 5 = some 5 from fdSlot_slot 5] at hslot
  obtain rfl := Option.some.inj hslot
  -- all that is outstanding is the saved completion
  have hone : removed.outstanding = {readyCqe.tag} := rfl
  rw [hone, Multiset.mem_singleton] at htag
  rw [htag]
  decide

theorem again_used (j : Fin uringMaxFds) (hj : j ≠ 5) (hused : (again.fds j).used = true) :
    (again.fds j).active = true := by
  have hinit : again.fds j = Uring.init.fds j := by
    rw [again, addConnection, setFd_eq, show fdSlot 5 = some 5 from fdSlot_slot 5]
    show ((polling.clear 5).setSlot 5 _).fds j = _
    rw [setSlot_ne _ hj, clear, setSlot_ne _ hj]
    exact Function.update_of_ne hj _ _
  rw [hinit] at hused
  cases hused

/-- The saved completion is processed, and nothing is reported. -/
theorem again_wait : (again.wait 1 0 true takingWaiting).1 = some []
    ∧ (again.wait 1 0 true takingWaiting).2.queue = [] := by
  have hone := submitMissing_one (u := again) (i := 5) rfl rfl again_used (by decide)
    takingWaiting.submit
  obtain ⟨armed, harmed⟩ : ∃ armed, armed = ((again.arm 5).enter 1 0 takingWaiting.submit).2 :=
    ⟨_, rfl⟩
  have henter : (again.arm 5).enter 1 0 takingWaiting.submit = (.ok 1, armed) := by
    rw [harmed]
    rfl
  -- the completion is of the last generation
  have hreport : armed.report readyCqe = none := by
    refine report_eq_none.mpr (Or.inr (Or.inr fun i hfd => Or.inl ?_))
    have hfive : userDataFd readyCqe.userData = ((5 : Fin uringMaxFds) : Int) := by decide
    rw [hfive] at hfd
    obtain rfl : 5 = i := Fin.ext (by exact_mod_cast hfd)
    rw [harmed]
    decide
  have hloop := @finishSavedLoop_eq [] 1 armed [readyCqe] [] (Nat.zero_le 1)
  have hworked : workOff armed.report 1 [readyCqe] = ([readyCqe], []) := by
    simp [workOff, hreport]
  rw [List.length_nil, Nat.sub_zero, hworked, List.filterMap_cons_none hreport] at hloop
  have hdeliver : armed.deliver 1 [] = finishRing 1 [] []
      { armed.settleAll [readyCqe] with pendingCqes := [] } := by
    have hsaved : armed.finishSavedCqes [] 1 = finishSavedLoop 1 [readyCqe] [] [] armed := by
      rw [harmed]
      rfl
    have hcq : (armed.settleAll [readyCqe]).cq = [] := by
      rw [settleAll_eq, harmed]
      rfl
    rw [deliver, hsaved, hloop]
    simp only [posts, List.foldl_nil, hcq]
    rfl
  rw [wait_polls Nat.one_ne_zero true (hone.trans henter)]
  show some (armed.deliver 1 []).1 = some [] ∧ (armed.deliver 1 []).2.queue = []
  rw [hdeliver]
  exact ⟨rfl, rfl⟩

/-- A descriptor is registered again while a completion of its last registration is saved: it is
dropped. -/
theorem stale_completions_dropped_again : Runs RegistersInTime Uring.init removed
    ∧ removed.call (.addConnection 5) = some again ∧ readyCqe ∈ again.pendingCqes
    ∧ readyCqe.registration < ((again.wait 1 0 true takingWaiting).2.fds 5).registrations
    ∧ (again.wait 1 0 true takingWaiting).1 = some []
    ∧ ∃ processed, again.Processed (again.armedFor 1 takingWaiting) processed
        (again.wait 1 0 true takingWaiting) ∧ again.DropsStale processed := by
  have hwaits : Runs RegistersInTime again (again.wait 1 0 true takingWaiting).2 :=
    Runs.call .refl (wait_inTime again 1 0 true takingWaiting) rfl
  have hlater := stale_completions_dropped (c := .addConnection 5) removed_ran (Or.inr (Or.inl rfl))
    (fdSlot_slot 5) rfl removed_inTime rfl hwaits
  have hnow := stale_completions_dropped (c := .addConnection 5) removed_ran (Or.inr (Or.inl rfl))
    (fdSlot_slot 5) rfl removed_inTime rfl (.refl (a := again))
  refine ⟨removed_ran, rfl, List.mem_singleton_self _, ?_, again_wait.1,
    hnow.2.1 1 0 true takingWaiting⟩
  exact hlater.1 readyCqe.tag (Multiset.mem_singleton_self _) (Or.inl rfl)

/-- `h2_io_mod_connection` registers a descriptor too. If it is added after that for the first
time, then the add does not begin a new registration, and a completion from before it is
reported. -/
theorem stale_completion_reported : ∃ u a b, Uring.init.call (.modConnection 5 false) = some u
    ∧ u.call (.wait 1 0 true takingWaiting) = some polling
    ∧ polling.call (.kernel [{ pos := 0, res := 1, flags := 0 }]) = some a
    ∧ a.call (.addConnection 5) = some b ∧ readyCqe ∈ a.cq ∧ b.queue = [readyCqe]
    ∧ (b.wait 1 0 true quietWaiting).1 = some [pollEvent 5 1] := by
  obtain ⟨u, hu, hpolling⟩ := @polling_reached (.modConnection 5 false) (Or.inr rfl)
  obtain ⟨b, hb⟩ : ∃ b, b = { polling with
      inFlight := []
      cq := [readyCqe]
      posted := [readyCqe] } := ⟨_, rfl⟩
  have hfds : b.fds = polling.fds := by rw [hb]
  -- the add leaves the table as it is
  have hadd : b.call (.addConnection 5) = some b := by
    have hsame : b.setSlot 5 (b.fds 5) = b := by
      rw [setSlot, Function.update_eq_self]
    have hentry : registered (b.fds 5) 0x2019 = b.fds 5 := by
      rw [hfds]
      rfl
    have hset := setFd_eq b 5 0x2019
    rw [show fdSlot 5 = some 5 from fdSlot_slot 5] at hset
    have hcall : b.call (.addConnection 5) = some (b.setFd 5 true 0x2019).2 := rfl
    rw [hcall, hset]
    exact congrArg some ((congrArg (b.setSlot 5) hentry).trans hsame)
  have hreport : b.report readyCqe = some (pollEvent 5 1) := report_eq_some.mpr
    ⟨5, current_eq_some.mpr (by rw [hfds]; decide), by decide, by rw [hfds]; rfl, rfl⟩
  have hwait : (b.wait 1 0 true quietWaiting).1 = some (b.deliver 1 []).1 := by
    have hidle := submitMissing_idle (u := b) (by rw [hfds]; exact polling_armed)
      quietWaiting.submit
    rw [wait_polls Nat.one_ne_zero true hidle]
    rfl
  have hevents : (b.deliver 1 []).1 = [pollEvent 5 1] := by
    obtain ⟨new, inFlight, hcomp, hevents, -⟩ := deliver_eq b 1 []
    have hnone : new = [] := by
      have hempty : b.inFlight = [] := by rw [hb]
      rw [Completes, hempty] at hcomp
      exact (show new = [] ∧ inFlight = [] by simpa using hcomp).1
    have hqueue : b.queue = [readyCqe] := by
      rw [hb]
      rfl
    rw [hevents, hnone, hqueue]
    simp [workOff, hreport]
  refine ⟨u, b, b, hu, hpolling, ?_, hadd, ?_, ?_, ?_⟩
  · rw [hb]
    rfl
  · rw [hb]
    exact List.mem_singleton_self readyCqe
  · rw [hb]
    rfl
  · rw [hwait, hevents]

end Uring

end C11Omo.IoUring
