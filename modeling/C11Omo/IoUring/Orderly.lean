import C11Omo.IoUring.Interest
import C11Omo.IoUring.Polls

set_option autoImplicit false

/-! # Orderly use of the backend

A removal that finds a poll in flight has to cancel it, and events that are asked for while a poll is
in flight come too late for it. A program that calls `h2_io_mod_connection` and `h2_io_remove` only
for descriptors whose poll has completed comes to neither. Then the outstanding requests are the
polls of the descriptors whose flag is set, each once (`Registry.Exact`), and nothing is left in the
submission queue or among the saved completions (`Uring.Orderly`). So `h2_io_wait` reports a
descriptor at most once, and only when its poll is done (`Orderly.wait`), and when the program
sleeps, the kernel has one poll for each descriptor in use (`Orderly.asleep`).
-/

namespace C11Omo.IoUring

open C11Omo.Http2 C11Omo.Lib

/-! ## The registry -/

namespace Registry

variable {r r' : Registry} {m : Move} {i j : Fin uringMaxFds} {tag : Nat × Nat}

/-- A poll is of one descriptor only. -/
theorem pollTag_inj (h : r.pollTag i = r'.pollTag j) : i = j := by
  by_contra hne
  exact pollUserData_slot_ne hne _ _ (congrArg Prod.fst h)

/-- The outstanding requests are the polls of the descriptors whose flag is set, each once. -/
structure Exact (r : Registry) : Prop extends Wellformed r where
  used : ∀ i, (r.fds i).active = true → (r.fds i).used = true
  nodup : r.outstanding.Nodup
  mem_iff : ∀ tag, tag ∈ r.outstanding ↔ ∃ i, (r.fds i).active = true ∧ tag = r.pollTag i

/-- No poll is cancelled, no timeout is requested, and nothing is done twice. -/
def Gentle (r : Registry) : Move → Prop
  | .timeout => False
  | .cancel _ => False
  | .duplicate _ => False
  | .clear i => (r.fds i).active = false
  | _ => True

theorem Exact.poll_mem (h : r.Exact) : r.pollTag i ∈ r.outstanding ↔ (r.fds i).active = true := by
  rw [h.mem_iff]
  constructor
  · rintro ⟨j, hactive, htag⟩
    rwa [pollTag_inj htag]
  · exact fun hactive => ⟨i, hactive, rfl⟩

/-- An outstanding request is for a current registration. -/
theorem Exact.current (h : r.Exact) (hmem : tag ∈ r.outstanding) :
    ∃ i, (r.fds i).active = true ∧ tag = r.pollTag i ∧ r.Current i tag := by
  obtain ⟨i, hactive, htag⟩ := (h.mem_iff tag).mp hmem
  exact ⟨i, hactive, htag, h.toWellformed.poll_current (congrArg Prod.fst htag)⟩

/-- A move that leaves the flags and the outstanding requests alone. -/
theorem Exact.of_same (h : r.Exact) (hwell : r'.Wellformed) (hout : r'.outstanding = r.outstanding)
    (hactive : ∀ i, (r'.fds i).active = (r.fds i).active)
    (hpoll : ∀ i, (r.fds i).active = true →
      (r'.fds i).used = true ∧ r'.pollTag i = r.pollTag i) : r'.Exact := by
  refine { hwell with used := fun i hi => ?_, nodup := ?_, mem_iff := fun tag => ?_ }
  · rw [hactive] at hi
    exact (hpoll i hi).1
  · rw [hout]
    exact h.nodup
  · rw [hout, h.mem_iff]
    constructor
    · rintro ⟨i, hi, rfl⟩
      exact ⟨i, (hactive i).trans hi, (hpoll i hi).2.symm⟩
    · rintro ⟨i, hi, rfl⟩
      rw [hactive] at hi
      exact ⟨i, hi, (hpoll i hi).2⟩

/-- A move at a descriptor that has no poll, before and after. -/
theorem Exact.setSlot (h : r.Exact) (hidle : (r.fds i).active = false) {state : FdState}
    (hidle' : state.active = false) (hwell : (r.setSlot i state).Wellformed) :
    (r.setSlot i state).Exact := by
  have hother : ∀ j, (r.fds j).active = true → (r.setSlot i state).fds j = r.fds j := by
    intro j hj
    apply setSlot_ne
    rintro rfl
    rw [hidle] at hj
    cases hj
  refine h.of_same hwell rfl (fun j => ?_) fun j hj => ?_
  · by_cases hij : j = i
    · rw [hij, setSlot_same, hidle, hidle']
    · rw [setSlot_ne r hij]
  · rw [pollTag, pollTag, hother j hj]
    exact ⟨h.used j hj, rfl⟩

/-- A poll is armed. -/
theorem Exact.arm (h : r.Exact) (hused : (r.fds i).used = true) (hidle : (r.fds i).active = false) :
    Exact { r.setSlot i { r.fds i with active := true } with
      outstanding := r.outstanding + {r.pollTag i} } := by
  have hwell := h.toWellformed.does (.arm i hused hidle)
  have hsame := setSlot_same r i { r.fds i with active := true }
  have hother := fun j (hj : j ≠ i) => setSlot_ne r hj { r.fds i with active := true }
  -- without the flag there was no poll, so the new one is there once
  have hnew : r.pollTag i ∉ r.outstanding := by
    rw [h.poll_mem, hidle]
    decide
  have htag : ∀ j, (r.setSlot i { r.fds i with active := true }).pollTag j = r.pollTag j := by
    intro j
    unfold pollTag
    by_cases hj : j = i
    · rw [hj, hsame]
    · rw [hother j hj]
  refine { hwell with used := fun j hj => ?_, nodup := ?_, mem_iff := fun tag => ?_ }
  · by_cases hij : j = i
    · rw [hij]
      exact (congrArg FdState.used hsame).trans hused
    · rw [hother j hij] at hj ⊢
      exact h.used j hj
  · rw [add_comm, Multiset.singleton_add, Multiset.nodup_cons]
    exact ⟨hnew, h.nodup⟩
  · rw [Multiset.mem_add, Multiset.mem_singleton, h.mem_iff]
    constructor
    · rintro (⟨j, hj, rfl⟩ | rfl)
      · refine ⟨j, ?_, (htag j).symm⟩
        by_cases hij : j = i
        · rw [hij, hsame]
        · rw [hother j hij]
          exact hj
      · exact ⟨i, by rw [hsame], (htag i).symm⟩
    · rintro ⟨j, hj, rfl⟩
      by_cases hij : j = i
      · rw [hij]
        exact Or.inr (htag i)
      · rw [hother j hij] at hj
        exact Or.inl ⟨j, hj, htag j⟩

/-- A poll has completed. -/
theorem Exact.settle (h : r.Exact) (hmem : tag ∈ r.outstanding) (hcurrent : r.Current i tag) :
    Exact { r.setSlot i { r.fds i with active := false } with
      outstanding := r.outstanding.erase tag } := by
  have hwell := h.toWellformed.does (.settle i tag hmem hcurrent)
  have hsame := setSlot_same r i { r.fds i with active := false }
  have hother := fun j (hj : j ≠ i) => setSlot_ne r hj { r.fds i with active := false }
  have htag : ∀ j, j ≠ i →
      (r.setSlot i { r.fds i with active := false }).pollTag j = r.pollTag j := by
    intro j hj
    rw [pollTag, pollTag, hother j hj]
  -- the completion is of the poll of this descriptor
  obtain ⟨k, -, rfl, hcurrent'⟩ := h.current hmem
  obtain rfl : k = i := Fin.ext (by exact_mod_cast hcurrent'.2.1.symm.trans hcurrent.2.1)
  refine { hwell with used := fun j hj => ?_, nodup := h.nodup.erase _, mem_iff := fun tag => ?_ }
  · by_cases hj' : j = k
    · rw [hj', hsame] at hj
      cases hj
    · rw [hother j hj'] at hj ⊢
      exact h.used j hj
  · rw [h.nodup.mem_erase_iff, h.mem_iff]
    constructor
    · rintro ⟨hne, j, hj, rfl⟩
      have hj' : j ≠ k := by
        rintro rfl
        exact hne rfl
      exact ⟨j, by rwa [hother j hj'], (htag j hj').symm⟩
    · rintro ⟨j, hj, rfl⟩
      have hj' : j ≠ k := by
        rintro rfl
        rw [hsame] at hj
        cases hj
      rw [hother j hj'] at hj
      refine ⟨fun heq => hj' ?_, j, hj, htag j hj'⟩
      exact pollTag_inj heq

/-- **Every gentle move** keeps the registry exact. -/
theorem Exact.does (h : r.Exact) (hgentle : Gentle r m) (hdoes : Does m r r') : r'.Exact := by
  have hwell := h.toWellformed.does hdoes
  cases hdoes with
  -- a free entry has no poll, and an entry in use keeps its generation
  | register i events =>
      rcases hused : (r.fds i).used with _ | _
      · have hidle : (r.fds i).active = false := by
          by_contra hactive
          rw [Bool.not_eq_false] at hactive
          rw [h.used i hactive] at hused
          cases hused
        refine h.setSlot hidle ?_ hwell
        rw [registered, hused]
        exact hidle
      · have hevents : registered (r.fds i) events = { r.fds i with events } := by
          rw [registered, if_pos hused]
        rw [hevents] at hwell ⊢
        refine h.of_same hwell rfl (fun j => ?_) fun j hj => ?_
        all_goals by_cases hij : j = i
        · rw [hij, setSlot_same]
        · rw [setSlot_ne r hij]
        · rw [pollTag, pollTag, hij, setSlot_same]
          exact ⟨hused, rfl⟩
        · rw [pollTag, pollTag, setSlot_ne r hij]
          exact ⟨h.used j hj, rfl⟩
  | arm i hused hidle => exact h.arm hused hidle
  | timeout => cases hgentle
  | cancel => cases hgentle
  -- all that is outstanding are polls of current registrations
  | ignore tag hmem hstale =>
      obtain ⟨i, -, -, hcurrent⟩ := h.current hmem
      exact absurd hcurrent (hstale i)
  | settle i tag hmem hcurrent => exact h.settle hmem hcurrent
  | answer i tag hmem hcancel =>
      obtain ⟨j, -, htag⟩ := (h.mem_iff tag).mp hmem
      rw [htag] at hcancel
      exact absurd hcancel (pollUserData_ne_cancel j i _ _)
  | duplicate => cases hgentle
  | clear i => exact h.setSlot hgentle rfl hwell

theorem Exact.init : Uring.init.registry.Exact :=
  { OnePoll.init.toWellformed with
    used := fun _ hactive => by cases hactive
    nodup := Multiset.nodup_zero
    mem_iff := fun tag => by
      constructor
      · exact fun hmem => by cases hmem
      · rintro ⟨i, hactive, -⟩
        cases hactive }

end Registry

/-! ## The backend -/

namespace Uring

open Registry

variable {u v : Uring} {i j : Fin uringMaxFds}

/-- The entries are the same but for their flags. -/
def SameEntries (u v : Uring) : Prop := ∀ i, ∃ active, v.fds i = { u.fds i with active }

theorem SameEntries.of_fds (h : v.fds = u.fds) : SameEntries u v :=
  fun i => ⟨(u.fds i).active, by rw [h]⟩

theorem SameEntries.trans {w : Uring} (h : SameEntries u v) (h' : SameEntries v w) :
    SameEntries u w := by
  intro i
  obtain ⟨active, hactive⟩ := h i
  obtain ⟨active', hactive'⟩ := h' i
  exact ⟨active', by rw [hactive', hactive]⟩

theorem SameEntries.entry (h : SameEntries u v) (i : Fin uringMaxFds) :
    (v.fds i).used = (u.fds i).used ∧ (v.fds i).events = (u.fds i).events := by
  obtain ⟨active, hactive⟩ := h i
  rw [hactive]
  exact ⟨rfl, rfl⟩

/-- The poll of a descriptor does not depend on its flag. -/
theorem SameEntries.pollSqe (h : SameEntries u v) (i : Fin uringMaxFds) :
    v.pollSqe i = u.pollSqe i := by
  obtain ⟨active, hactive⟩ := h i
  rw [Uring.pollSqe, Uring.pollSqe, hactive]

theorem SameEntries.pollTag (h : SameEntries u v) (i : Fin uringMaxFds)
    (outstanding : Multiset (Nat × Nat)) :
    Registry.pollTag ⟨v.fds, outstanding⟩ i = u.registry.pollTag i := by
  obtain ⟨active, hactive⟩ := h i
  show (pollUserData i (v.fds i).generation, (v.fds i).registrations) = u.registry.pollTag i
  rw [hactive]
  rfl

theorem SameEntries.flag {active : Bool}
    (h : v.fds = Function.update u.fds i { u.fds i with active }) : SameEntries u v := by
  intro j
  rw [h]
  by_cases hj : j = i
  · rw [hj, Function.update_self]
    exact ⟨active, rfl⟩
  · rw [Function.update_of_ne hj]
    exact ⟨(u.fds j).active, rfl⟩

theorem settleAll_sameEntries (u : Uring) (cqes : List Cqe) : SameEntries u (u.settleAll cqes) := by
  induction cqes generalizing u with
  | nil => exact .of_fds rfl
  | cons cqe cqes ih =>
      refine SameEntries.trans ?_ (ih (u.settle cqe))
      rw [settle]
      rcases u.current cqe with _ | i
      · exact .of_fds rfl
      · exact .flag rfl

/-- What is outstanding are the polls of the descriptors whose flag is set, and they wait in the
kernel or in the ring. -/
structure Orderly (u : Uring) : Prop where
  exact : u.registry.Exact
  sq : u.sq = []
  pendingCqes : u.pendingCqes = []
  polls : ∀ sqe ∈ u.inFlight, ∃ i, sqe = u.pollSqe i

theorem Orderly.init : Uring.init.Orderly where
  exact := Exact.init
  sq := rfl
  pendingCqes := rfl
  polls := fun _ hmem => by cases hmem

/-- A request in flight is the poll of a descriptor whose flag is set. -/
theorem Orderly.poll (h : u.Orderly) {sqe : Sqe} (hmem : sqe ∈ u.inFlight) :
    ∃ i, (u.fds i).active = true ∧ sqe = u.pollSqe i := by
  obtain ⟨i, rfl⟩ := h.polls sqe hmem
  refine ⟨i, h.exact.poll_mem.mp ?_, rfl⟩
  have htag : (u.pollSqe i).tag ∈ u.inFlight.map Sqe.tag := List.mem_map_of_mem hmem
  exact Multiset.mem_add.mpr (Or.inl (Multiset.mem_add.mpr (Or.inr htag)))

/-- An entry without a poll is set, and the registry stays exact. -/
theorem Orderly.setSlot (h : u.Orderly) (hidle : (u.fds i).active = false) {state : FdState}
    (hexact : (u.setSlot i state).registry.Exact) : (u.setSlot i state).Orderly := by
  refine ⟨hexact, h.sq, h.pendingCqes, fun sqe hmem => ?_⟩
  obtain ⟨j, hactive, rfl⟩ := h.poll hmem
  have hj : j ≠ i := by
    rintro rfl
    rw [hidle] at hactive
    cases hactive
  exact ⟨j, by rw [pollSqe, pollSqe, setSlot_ne u hj]⟩

/-- **A descriptor is registered**, or asks for other events, while it has no poll. -/
theorem Orderly.register (h : u.Orderly) (hidle : (u.fds i).active = false) (events : Nat) :
    (u.setSlot i (registered (u.fds i) events)).Orderly :=
  h.setSlot hidle (h.exact.does (m := .register i events) trivial (.register i events))

/-- **A descriptor is removed** that has no poll. -/
theorem Orderly.clear (h : u.Orderly) (hidle : (u.fds i).active = false) : (u.clear i).Orderly :=
  h.setSlot hidle (h.exact.does (m := .clear i) hidle (.clear i))

/-- The kernel completes polls. -/
theorem Orderly.posts (h : u.Orderly) (ps : List Post) : (u.posts ps).Orderly := by
  have hadv := posts_advances u ps
  have hreg : (u.posts ps).registry = u.registry := by
    rw [registry, registry, hadv.fds, posts_outstanding]
  refine ⟨hreg ▸ h.exact, (posts_sq u ps).trans h.sq, hadv.pendingCqes.trans h.pendingCqes,
    fun sqe hmem => ?_⟩
  have hold := posts_requests u ps (mem_requests.mpr (Or.inr hmem))
  rw [requests, h.sq] at hold
  obtain ⟨i, hi⟩ := h.polls sqe hold
  exact ⟨i, hi.trans (SameEntries.of_fds hadv.fds |>.pollSqe i).symm⟩

/-! ## Arming -/

theorem arms_exact (h : u.registry.Exact) (harms : Relation.ReflTransGen Arms u v) :
    v.registry.Exact ∧ SameEntries u v
      ∧ ∀ sqe ∈ v.requests, sqe ∈ u.requests ∨ ∃ i, sqe = u.pollSqe i := by
  induction harms with
  | refl => exact ⟨h, .of_fds rfl, fun _ => Or.inl⟩
  | @tail v _ _ hstep ih =>
      obtain ⟨i, hused, hidle, rfl⟩ := hstep
      obtain ⟨hexact, hsame, hrequests⟩ := ih
      refine ⟨?_, hsame.trans (.flag rfl), fun sqe hmem => ?_⟩
      · have harmed := hexact.arm hused hidle
        rw [registry, arm_outstanding]
        exact harmed
      · rcases mem_requests.mp hmem with hsq | hflight
        · rw [arm_sq] at hsq
          rcases List.mem_append.mp hsq with hold | hlast
          · exact hrequests sqe (mem_requests.mpr (Or.inl hold))
          · exact Or.inr ⟨i, (List.mem_singleton.mp hlast).trans (hsame.pollSqe i)⟩
        · exact hrequests sqe (mem_requests.mpr (Or.inr hflight))

/-- What `h2_uring_submit_missing` submits are polls that it has armed. -/
theorem submitMissing_armed (u : Uring) (answer : Entered) : ∃ armed,
    Relation.ReflTransGen Arms u armed ∧ (u.submitMissing answer).2.fds = armed.fds
      ∧ (u.submitMissing answer).2.outstanding = armed.outstanding
      ∧ (u.submitMissing answer).2.requests ⊆ armed.requests := by
  have harms := submitMissingLoop_arms (List.finRange uringMaxFds) 0 u
  unfold Uring.submitMissing
  generalize List.finRange uringMaxFds = is at harms ⊢
  rcases hloop : submitMissingLoop is 0 u with ⟨submitted, armed⟩
  rw [hloop] at harms
  refine ⟨armed, harms, ?_⟩
  cases submitted with
  | zero => exact ⟨rfl, rfl, fun _ hmem => hmem⟩
  | succ n => exact ⟨rfl, enter_outstanding armed (n + 1) 0 answer, enter_requests armed (n + 1) 0 answer⟩

/-- **`h2_uring_submit_missing`**, if it succeeds. -/
theorem Orderly.submitMissing (h : u.Orderly) {eventCap : Nat} {timeoutMs : Int} {extArg : Bool}
    {w : Waiting} (hcap : eventCap ≠ 0) (hwhole : u.TakesWhole (.wait eventCap timeoutMs extArg w))
    {n : Nat} (hok : (u.submitMissing w.submit).1 = .ok n) :
    (u.submitMissing w.submit).2.Orderly ∧ SameEntries u (u.submitMissing w.submit).2 := by
  obtain ⟨new, hlen, -, hnone, hsome⟩ := submitMissing_queue u w.submit
  have hsq : (u.submitMissing w.submit).2.sq = [] := by
    by_cases hmissing : u.missing = 0
    · rw [(hnone hmissing).2, h.sq]
    · have hmem : ({ toSubmit := u.missing, answer := w.submit } : Submission)
          ∈ u.submissions (.wait eventCap timeoutMs extArg w) := by
        rw [submissions, if_neg hcap, if_neg hmissing]
        exact List.mem_append_left _ (List.mem_singleton_self _)
      have htaken := hwhole _ hmem
      rw [(hsome hmissing).1] at hok
      rw [Submission.Whole, Submission.fails_ok hok, if_neg (by decide)] at htaken
      rw [(hsome hmissing).2, h.sq, List.nil_append, show w.submit.consumed = u.missing from htaken,
        min_self, ← hlen, List.drop_length]
  obtain ⟨armed, harms, hfds, hout, hsub⟩ := submitMissing_armed u w.submit
  have hpend := (submitMissing_frame u w.submit).2.1.trans h.pendingCqes
  obtain ⟨hexact, hsame, hrequests⟩ := arms_exact h.exact harms
  generalize (u.submitMissing w.submit).2 = v at hsq hfds hout hsub hpend ⊢
  have hsame' : SameEntries u v := hsame.trans (.of_fds hfds)
  rw [registry, ← hfds, ← hout] at hexact
  refine ⟨⟨hexact, hsq, hpend, fun sqe hmem => ?_⟩, hsame'⟩
  rcases hrequests sqe (hsub (mem_requests.mpr (Or.inr hmem))) with hold | ⟨i, hi⟩
  · rw [requests, h.sq] at hold
    obtain ⟨i, hi⟩ := h.polls sqe hold
    exact ⟨i, hi.trans (hsame'.pollSqe i).symm⟩
  · exact ⟨i, hi.trans (hsame'.pollSqe i).symm⟩

/-! ## Waiting -/

theorem Orderly.enter_zero (h : u.Orderly) (minComplete : Nat) (answer : Entered) :
    (u.enter 0 minComplete answer).2.Orderly := by
  rw [Uring.enter_zero]
  exact ⟨h.exact, h.sq, h.pendingCqes, h.polls⟩

/-- Waiting without a timeout submits nothing. -/
theorem Orderly.waits (h : u.Orderly) {timeoutMs : Int} (hneg : timeoutMs < 0) (extArg : Bool)
    (w : Waiting) : (u.waits timeoutMs extArg w).2.Orderly := by
  have hposts := h.posts w.posted
  unfold Uring.waits waitForEvent
  by_cases hempty : (u.posts w.posted).cq = []
  · simp only [if_pos hempty]
    rw [if_neg (by omega), if_pos hneg]
    exact hposts.enter_zero 1 w.wait
  · simp only [if_neg hempty]
    exact hposts

/-- Completions are processed one after the other. -/
theorem settleAll_exact (outstanding : Multiset (Nat × Nat)) (u : Uring) (cqes : List Cqe)
    (h : Exact ⟨u.fds, outstanding + (cqes.map Cqe.tag : Multiset (Nat × Nat))⟩) :
    Exact ⟨(u.settleAll cqes).fds, outstanding⟩ := by
  induction cqes generalizing u with
  | nil =>
      rw [List.map_nil, Multiset.coe_nil, add_zero] at h
      exact h
  | cons cqe cqes ih =>
      obtain ⟨all, hall⟩ : ∃ all : Multiset (Nat × Nat),
        all = outstanding + ((cqe :: cqes).map Cqe.tag : Multiset (Nat × Nat)) := ⟨_, rfl⟩
      have herase : all.erase cqe.tag = outstanding + (cqes.map Cqe.tag : Multiset (Nat × Nat)) := by
        rw [hall, List.map_cons, ← Multiset.cons_coe, Multiset.add_cons, Multiset.erase_cons_head]
      rw [← hall] at h
      have hmem : cqe.tag ∈ all := by
        rw [hall]
        exact Multiset.mem_add.mpr (Or.inr List.mem_cons_self)
      obtain ⟨i, -, -, hcurrent⟩ := h.current hmem
      have hsettled := h.settle hmem hcurrent
      have hslot : u.settle cqe = u.setSlot i { u.fds i with active := false } := by
        rw [settle, current_eq_some.mpr hcurrent]
      rw [settleAll_cons, hslot]
      apply ih
      rw [← herase]
      exact hsettled

/-- Nothing is saved by `h2_io_wait`. -/
theorem deliver_pendingCqes (h : u.pendingCqes = []) (eventCap : Nat) (later : List Post) :
    (u.deliver eventCap later).2.pendingCqes = [] := by
  have hsaved : u.finishSavedCqes [] eventCap = ([], u) := by
    rw [finishSavedCqes, h, finishSavedLoop, ← h]
  have hring := @finishRing_eq [] eventCap (u.posts later) (u.posts later).cq (Nat.zero_le _)
  rw [deliver, hsaved]
  simp only [hring]
  show ((u.posts later).settleAll _).pendingCqes = []
  rw [settleAll_eq]
  exact (posts_advances u later).pendingCqes.trans h

/-- The descriptors that are reported are in use, each is reported once, and their polls are done. -/
def Reports (u : Uring) (events : List IoEvent) : Prop :=
  (events.map IoEvent.fd).Nodup
    ∧ ∀ event ∈ events, ∃ i : Fin uringMaxFds, event.fd = i ∧ (u.fds i).used = true
      ∧ (u.fds i).active = false

/-- **Delivery** reports descriptors whose poll has completed, and keeps the others. -/
theorem Orderly.deliver (h : u.Orderly) (eventCap : Nat) (later : List Post) :
    (u.deliver eventCap later).2.Orderly ∧ SameEntries u (u.deliver eventCap later).2
      ∧ (u.deliver eventCap later).2.Reports (u.deliver eventCap later).1 := by
  obtain ⟨new, inFlight, hcomp, hevents, hqueue, pendingCqes, cq, hstate⟩ :=
    deliver_eq u eventCap later
  have hpending := deliver_pendingCqes h.pendingCqes eventCap later
  have hrequests := deliver_requests u eventCap later
  have hall := workOff_append u.report eventCap (u.queue ++ new)
  rw [← hqueue] at hall
  generalize (workOff u.report eventCap (u.queue ++ new)).1 = processed at hevents hstate hall
  generalize (u.deliver eventCap later).1 = events at hevents ⊢
  generalize (u.deliver eventCap later).2 = v at hpending hrequests hall hstate ⊢
  have hfds : v.fds = (u.settleAll processed).fds := by rw [hstate]
  have hsq : v.sq = [] := by
    rw [hstate]
    exact h.sq
  have hsame : SameEntries u v := (settleAll_sameEntries u processed).trans (.of_fds hfds)
  have htaken : v.outstanding + processed.map Cqe.tag = u.outstanding :=
    outstanding_taken (hsq.trans h.sq.symm) (by rw [hstate]; exact hcomp) hall.symm
  -- what has been processed were polls, each once
  have hbefore := h.exact
  rw [registry, ← htaken] at hbefore
  have hafter := settleAll_exact v.outstanding u processed hbefore
  rw [← hfds] at hafter
  have hnodup := hbefore.nodup
  rw [Multiset.nodup_add] at hnodup
  have hpoll : ∀ cqe ∈ processed, ∃ i : Fin uringMaxFds, u.report cqe = some (pollEvent i cqe.res)
      ∧ cqe.tag = u.registry.pollTag i ∧ (v.fds i).used = true ∧ (v.fds i).active = false := by
    intro cqe hcqe
    have hmem : cqe.tag ∈ (processed.map Cqe.tag : Multiset (Nat × Nat)) :=
      List.mem_map_of_mem hcqe
    have hout : cqe.tag ∈ u.registry.outstanding := by
      show cqe.tag ∈ u.outstanding
      rw [← htaken]
      exact Multiset.mem_add.mpr (Or.inr hmem)
    obtain ⟨i, hactive, htag, hcurrent⟩ := h.exact.current hout
    have hused := h.exact.used i hactive
    have hnotcancel : isCancelUserData cqe.userData = false := by
      rw [show cqe.userData = pollUserData i (u.fds i).generation from congrArg Prod.fst htag,
        isCancelUserData_poll]
    refine ⟨i, report_eq_some.mpr ⟨i, current_eq_some.mpr hcurrent, hnotcancel, hused, rfl⟩, htag,
      (hsame.entry i).1.trans hused, ?_⟩
    by_contra hstill
    rw [Bool.not_eq_false] at hstill
    have hagain := hafter.poll_mem.mpr hstill
    rw [hsame.pollTag, ← htag] at hagain
    exact Multiset.disjoint_left.mp hnodup.2.2 hagain hmem
  refine ⟨⟨hafter, hsq, hpending, fun sqe hmem => ?_⟩, hsame, ?_, fun event hevent => ?_⟩
  · have hold := hrequests (mem_requests.mpr (Or.inr hmem))
    rw [requests, h.sq] at hold
    obtain ⟨i, hi⟩ := h.polls sqe hold
    exact ⟨i, hi.trans (hsame.pollSqe i).symm⟩
  · -- each poll completes once, so no descriptor is reported twice
    rw [hevents, List.map_filterMap]
    have hdistinct : processed.Pairwise fun cqe cqe' => cqe.tag ≠ cqe'.tag :=
      List.pairwise_map.mp (Multiset.coe_nodup.mp hnodup.2.1)
    refine List.pairwise_filterMap.mpr (hdistinct.imp_of_mem ?_)
    intro cqe cqe' hcqe hcqe' hne fd hfd fd' hfd' heq
    obtain ⟨i, hreport, htag, -⟩ := hpoll cqe hcqe
    obtain ⟨j, hreport', htag', -⟩ := hpoll cqe' hcqe'
    rw [hreport, Option.map_some] at hfd
    rw [hreport', Option.map_some] at hfd'
    have hi : (i : Int) = fd := Option.some.inj hfd
    have hj : (j : Int) = fd' := Option.some.inj hfd'
    have hij : i = j := Fin.ext (by exact_mod_cast hi.trans (heq.trans hj.symm))
    exact hne (by rw [htag, htag', hij])
  · -- every event is that of a poll
    rw [hevents, List.mem_filterMap] at hevent
    obtain ⟨cqe, hcqe, hreport⟩ := hevent
    obtain ⟨i, hreport', -, hused, hidle⟩ := hpoll cqe hcqe
    rw [hreport'] at hreport
    obtain rfl := Option.some.inj hreport
    exact ⟨i, rfl, hused, hidle⟩

section

variable {eventCap : Nat} {timeoutMs : Int} {extArg : Bool} {w : Waiting}

/-- **`h2_io_wait`** reports descriptors in use whose poll has completed, each once. -/
theorem Orderly.wait (h : u.Orderly) (hcap : eventCap ≠ 0) (hneg : timeoutMs < 0)
    (hwhole : u.TakesWhole (.wait eventCap timeoutMs extArg w)) {events : List IoEvent}
    (hret : u.wait eventCap timeoutMs extArg w = (some events, v)) :
    v.Orderly ∧ SameEntries u v ∧ v.Reports events := by
  rcases hsubmit : u.submitMissing w.submit with ⟨res, armed⟩
  cases res with
  | error err =>
      rw [Uring.wait, if_neg hcap, hsubmit] at hret
      cases hret
  | ok n =>
      obtain ⟨harmed, hsame⟩ := h.submitMissing hcap hwhole (congrArg Prod.fst hsubmit)
      rw [hsubmit] at harmed hsame
      have hwaits := harmed.waits hneg extArg w
      have hfds := (waits_advances armed timeoutMs extArg w).fds
      have hsame' := hsame.trans (.of_fds hfds)
      rw [Uring.wait, if_neg hcap, hsubmit] at hret
      simp only at hret
      rcases hwaited : armed.waits timeoutMs extArg w with ⟨res, waited⟩
      rw [hwaited] at hret hwaits hsame'
      have hnothing : waited.Reports [] := ⟨List.nodup_nil, fun _ hevent => by cases hevent⟩
      cases res with
      | error err =>
          -- woken by a signal, or nothing is reported
          cases err with
          | eintr | etime | etimedout =>
              cases hret
              exact ⟨hwaits, hsame', hnothing⟩
          | _ => cases hret
      | ok m =>
          obtain ⟨hdeliver, hsame'', hreports⟩ := hwaits.deliver eventCap w.later
          cases hret
          exact ⟨hdeliver, hsame'.trans hsame'', hreports⟩

/-- **When the program sleeps**, the kernel has one poll for each descriptor in use, with its events,
and no other request. -/
theorem Orderly.asleep (h : u.Orderly) (hwhole : u.TakesWhole (.wait eventCap timeoutMs extArg w))
    (hblocks : u.Blocks eventCap timeoutMs w) {n : Nat}
    (hok : (u.submitMissing w.submit).1 = .ok n) (hfew : u.usedCount ≤ uringEntries) :
    (∀ sqe, sqe ∈ (u.asleep w).inFlight ↔ ∃ i, (u.fds i).used = true ∧ sqe = u.pollSqe i)
      ∧ (u.asleep w).inFlight.Nodup := by
  obtain ⟨hcap, -, hempty⟩ := hblocks
  obtain ⟨harmed, hsame⟩ := h.submitMissing hcap hwhole hok
  have hall : ∀ i, (u.fds i).used = true → ((u.submitMissing w.submit).2.fds i).active = true :=
    fun i => submitMissing_all h.sq hfew w.submit
  have hfds := (posts_advances (u.submitMissing w.submit).2 w.posted).fds
  have hposts := harmed.posts w.posted
  rw [Uring.asleep] at hempty ⊢
  generalize (u.submitMissing w.submit).2 = armed at hsame hall hfds hposts hempty ⊢
  rw [← hfds] at hall
  have hsame' := hsame.trans (.of_fds hfds)
  generalize armed.posts w.posted = v at hposts hsame' hall hempty ⊢
  -- nothing is queued or posted, so all that is outstanding is in flight
  have hout : v.outstanding = (v.inFlight.map Sqe.tag : Multiset (Nat × Nat)) := by
    rw [outstanding, queue, hposts.sq, hposts.pendingCqes, hempty]
    simp
  constructor
  · intro sqe
    constructor
    · intro hmem
      obtain ⟨i, hactive, hi⟩ := hposts.poll hmem
      have hused := hposts.exact.used i hactive
      exact ⟨i, (hsame'.entry i).1.symm.trans hused, hi.trans (hsame'.pollSqe i)⟩
    · rintro ⟨i, hused, rfl⟩
      have htag := hposts.exact.poll_mem.mpr (hall i hused)
      change v.registry.pollTag i ∈ v.outstanding at htag
      rw [hout, Multiset.mem_coe, List.mem_map] at htag
      obtain ⟨sqe, hmem, htag⟩ := htag
      obtain ⟨j, rfl⟩ := hposts.polls sqe hmem
      have hsametag : v.registry.pollTag j = v.registry.pollTag i := htag
      obtain rfl := pollTag_inj hsametag
      rwa [← hsame'.pollSqe j]
  · have hnodup := hposts.exact.nodup
    change v.outstanding.Nodup at hnodup
    rw [hout, Multiset.coe_nodup] at hnodup
    exact hnodup.of_map

end

end Uring

end C11Omo.IoUring
