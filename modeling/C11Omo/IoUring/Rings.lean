import C11Omo.IoUring.Memory
import C11Omo.IoUring.Submissions

set_option autoImplicit false

/-! # The rings refine the queues

Every function over the rings in memory does what its namesake in `Ring.lean` does with lists, as long
as no ring and no array holds more than it has room for (`Memory.Sane`), which they never do. So every
run over the rings is a run with lists that returns the same (`rings_refine`), and what the other
modules say of the queues holds of the rings.
-/

namespace C11Omo.IoUring

open C11Omo.Http2 C11Omo.Lib

namespace Memory

/-! ## The rings are not overfilled -/

variable {m : Memory}

/-- No ring and no array holds more than it has room for, and the entries that are submitted are found
through the array of indices. -/
structure Sane (m : Memory) : Prop where
  sq : m.sqRing.count ≤ 2 ^ sqOrder
  array : ∀ j, j < m.sqRing.count →
    m.sqArray (m.sqRing.index sqOrder j) = m.sqRing.index sqOrder j
  cq : m.cqRing.count ≤ 2 ^ cqOrder
  saved : m.pendingCqeCount ≤ uringSavedCqes

/-- Every entry of the submission ring that is written is one of its entries, whatever the counter. -/
theorem sqIndex_lt (i : UInt32) : (i &&& sqRingMask).toNat < uringEntries :=
  RingBuffer.mask_lt (by decide) i

/-- And every entry of the completion ring that is read. -/
theorem cqIndex_lt (i : UInt32) : (i &&& cqRingMask).toNat < 2 ^ cqOrder :=
  RingBuffer.mask_lt (by decide) i

theorem init_sane (sq cq : UInt32) (sqe : Sqe) (cqe : Cqe) : (init sq cq sqe cqe).Sane := by
  have hsq : (init sq cq sqe cqe).sqRing.count = 0 := RingBuffer.count_eq_zero.mpr rfl
  have hcq : (init sq cq sqe cqe).cqRing.count = 0 := RingBuffer.count_eq_zero.mpr rfl
  refine ⟨by rw [hsq]; exact Nat.zero_le _, fun j hj => ?_, by rw [hcq]; exact Nat.zero_le _,
    Nat.zero_le _⟩
  rw [hsq] at hj
  exact absurd hj (Nat.not_lt_zero j)

theorem init_view (sq cq : UInt32) (sqe : Sqe) (cqe : Cqe) : (init sq cq sqe cqe).view = .init := by
  have hsq : (init sq cq sqe cqe).sqRing.toList sqOrder = [] := RingBuffer.toList_eq_nil.mpr rfl
  have hcq : (init sq cq sqe cqe).cqRing.toList cqOrder = [] := RingBuffer.toList_eq_nil.mpr rfl
  rw [view, hsq, hcq]
  rfl

theorem cq_eq_nil (m : Memory) : m.view.cq = [] ↔ m.cqHead = m.cqTail :=
  RingBuffer.toList_eq_nil

/-- The counters say how long the lists are. -/
theorem sq_length (m : Memory) : m.view.sq.length = m.sqRing.count := RingBuffer.length_toList ..

theorem cq_length (m : Memory) : m.view.cq.length = m.cqRing.count := RingBuffer.length_toList ..

/-- What touches the table of descriptors only. -/
theorem Sane.fds (h : m.Sane) (fds : Fin uringMaxFds → FdState) :
    ({ m with fds } : Memory).Sane := ⟨h.sq, h.array, h.cq, h.saved⟩

/-! ## The kernel -/

theorem post_view (h : m.Sane) (p : Post) :
    (m.post p).Sane ∧ ((m.post p).view = m.view ∨ (m.post p).view = m.view.post p) := by
  have hfull : m.cqTail - m.cqHead ≥ 512 ↔ 2 ^ cqOrder ≤ m.cqRing.count := UInt32.le_iff_toNat_le
  unfold post
  by_cases hroom : m.cqTail - m.cqHead ≥ 512
  · rw [if_pos hroom]
    exact ⟨h, Or.inl rfl⟩
  · rw [if_neg hroom]
    have hlt : m.cqRing.count < 2 ^ cqOrder := not_le.mp (mt hfull.mpr hroom)
    rcases hsqe : m.inFlight[p.pos]? with _ | sqe
    · exact ⟨h, Or.inl rfl⟩
    · simp only
      generalize hcqe : Cqe.mk sqe.userData p.res p.flags sqe.registration = cqe
      have hpush := RingBuffer.toList_push hlt (by decide) cqe
      have hcount := RingBuffer.count_push hlt (by decide) cqe
      refine ⟨⟨h.sq, h.array, ?_, h.saved⟩, Or.inr ?_⟩
      · show (m.cqRing.push cqOrder cqe).count ≤ _
        rw [hcount]
        exact hlt
      · rw [Uring.post, show m.view.inFlight[p.pos]? = some sqe from hsqe]
        simp only [hcqe]
        rw [view]
        show Uring.mk _ _ ((m.cqRing.push cqOrder cqe).toList cqOrder) _ _ _ _ = _
        rw [hpush]
        rfl

/-- **What the kernel posts**: some of it at once, and some not yet. -/
theorem posts_view (h : m.Sane) (ps : List Post) :
    (m.posts ps).Sane ∧ ∃ ps', (m.posts ps).view = m.view.posts ps' := by
  induction ps generalizing m with
  | nil => exact ⟨h, [], rfl⟩
  | cons p ps ih =>
      obtain ⟨hsane, hview⟩ := post_view h p
      obtain ⟨hsane', ps', hview'⟩ := ih hsane
      refine ⟨hsane', ?_⟩
      rcases hview with hsame | hpost
      · exact ⟨ps', by rw [← hsame]; exact hview'⟩
      · refine ⟨p :: ps', ?_⟩
        show _ = (m.view.post p).posts ps'
        rw [← hpost]
        exact hview'

theorem enter_view (h : m.Sane) (toSubmit minComplete : Nat) (answer : Entered) :
    (m.enter toSubmit minComplete answer).2.Sane
      ∧ (m.enter toSubmit minComplete answer).2.view
        = (m.view.enter toSubmit minComplete answer).2 := by
  have hlength : m.view.sq.length = (m.sqTail - m.sqHead).toNat := RingBuffer.length_toList ..
  have htake : m.view.sq.take (min answer.consumed toSubmit) = m.view.sq.take
      (min (min answer.consumed toSubmit) (m.sqTail - m.sqHead).toNat) := by
    rw [← hlength]
    exact List.take_eq_take_min
  have hdrop : m.view.sq.drop (min answer.consumed toSubmit) = m.view.sq.drop
      (min (min answer.consumed toSubmit) (m.sqTail - m.sqHead).toNat) := by
    rw [← hlength]
    exact List.drop_eq_drop_min
  simp only [enter, Uring.enter, htake, hdrop]
  have hle : min (min answer.consumed toSubmit) (m.sqTail - m.sqHead).toNat ≤ m.sqRing.count :=
    Nat.min_le_right _ _
  -- the kernel moves the head of the submission ring past what it takes
  generalize min (min answer.consumed toSubmit) (m.sqTail - m.sqHead).toNat = taken at hle ⊢
  have hcount := RingBuffer.count_advance hle
  refine ⟨⟨?_, fun j hj => ?_, h.cq, h.saved⟩, ?_⟩
  · show (m.sqRing.advance taken).count ≤ _
    rw [hcount]
    exact (Nat.sub_le _ _).trans h.sq
  · change j < (m.sqRing.advance taken).count at hj
    rw [hcount] at hj
    show m.sqArray ((m.sqRing.advance taken).index sqOrder j)
      = (m.sqRing.advance taken).index sqOrder j
    rw [RingBuffer.index_advance]
    exact h.array _ (by omega)
  · rw [view]
    show Uring.mk ((m.sqRing.advance taken).toList sqOrder) _ _ _ _ _ _ = _
    rw [RingBuffer.toList_advance hle]
    rfl

/-! ## The operations one by one -/

/-- `h2_uring_get_sqe` and its caller fill the cell at the tail. -/
def queued (m : Memory) (sqe : Sqe) : Memory :=
  { m with
    sqArray := Function.update m.sqArray (m.sqTail &&& sqRingMask) (m.sqTail &&& sqRingMask)
    sqTail := m.sqTail + 1
    sqes := Function.update m.sqes (m.sqTail &&& sqRingMask) sqe }

theorem queued_view (h : m.Sane) (hroom : m.sqRing.count < 2 ^ sqOrder) (sqe : Sqe) :
    (m.queued sqe).Sane ∧ (m.queued sqe).view = { m.view with sq := m.view.sq ++ [sqe] } := by
  have hcount : (m.queued sqe).sqRing.count = m.sqRing.count + 1 :=
    RingBuffer.count_push hroom (by decide) sqe
  have hlast : m.sqRing.index sqOrder m.sqRing.count = m.sqTail &&& sqRingMask :=
    RingBuffer.index_count ..
  have hne : ∀ j, j < m.sqRing.count → m.sqRing.index sqOrder j ≠ m.sqTail &&& sqRingMask := by
    intro j hj
    rw [← hlast]
    exact RingBuffer.index_ne (by decide) hj (by omega)
  -- the new entry is found through its own index, the others as before
  have harray : ∀ j, j < m.sqRing.count + 1 → (m.queued sqe).sqArray (m.sqRing.index sqOrder j)
      = m.sqRing.index sqOrder j := by
    intro j hj
    rcases Nat.lt_succ_iff_lt_or_eq.mp hj with hlt | rfl
    · exact (Function.update_of_ne (hne j hlt) ..).trans (h.array j hlt)
    · rw [hlast]
      exact Function.update_self ..
  have hcells : ∀ j, j < (m.sqRing.push sqOrder sqe).count →
      (m.queued sqe).sqRing.cells ((m.sqRing.push sqOrder sqe).index sqOrder j)
        = (m.sqRing.push sqOrder sqe).cells ((m.sqRing.push sqOrder sqe).index sqOrder j) := by
    intro j hj
    rw [RingBuffer.count_push hroom (by decide)] at hj
    show (m.queued sqe).sqes ((m.queued sqe).sqArray (m.sqRing.index sqOrder j))
      = Function.update m.sqRing.cells (m.sqTail &&& sqRingMask) sqe (m.sqRing.index sqOrder j)
    rw [harray j hj]
    show Function.update m.sqes (m.sqTail &&& sqRingMask) sqe (m.sqRing.index sqOrder j) = _
    rcases Nat.lt_succ_iff_lt_or_eq.mp hj with hlt | rfl
    · rw [Function.update_of_ne (hne j hlt), Function.update_of_ne (hne j hlt)]
      exact congrArg m.sqes (h.array j hlt).symm
    · rw [hlast, Function.update_self, Function.update_self]
  have hlist : (m.queued sqe).sqRing.toList sqOrder = m.sqRing.toList sqOrder ++ [sqe] := by
    rw [← RingBuffer.toList_push hroom (by decide)]
    exact RingBuffer.toList_congr rfl rfl hcells
  refine ⟨⟨by rw [hcount]; exact hroom, fun j hj => ?_, h.cq, h.saved⟩, ?_⟩
  · rw [hcount] at hj
    exact harray j hj
  · rw [view, hlist]
    rfl

/-- **A request is queued** exactly if the list has room for it. -/
theorem getSqe_view (h : m.Sane) (sqe : Sqe) : m.view.getSqe sqe = (m.getSqe sqe).map view
    ∧ ∀ m', m.getSqe sqe = some m' → m'.Sane := by
  have hfull : m.sqTail - m.sqHead ≥ sqRingEntries ↔ m.view.sq.length ≥ uringEntries := by
    rw [sq_length]
    exact UInt32.le_iff_toNat_le
  have hget : m.getSqe sqe
    = if m.sqTail - m.sqHead ≥ sqRingEntries then none else some (m.queued sqe) := rfl
  rw [hget, Uring.getSqe]
  by_cases hroom : m.view.sq.length ≥ uringEntries
  · rw [if_pos hroom, if_pos (hfull.mpr hroom)]
    exact ⟨rfl, fun _ hnone => by cases hnone⟩
  · rw [if_neg hroom, if_neg (mt hfull.mp hroom)]
    rw [sq_length] at hroom
    obtain ⟨hsane, hview⟩ := queued_view h (not_le.mp hroom) sqe
    refine ⟨?_, fun m' hm => ?_⟩
    · rw [Option.map_some, hview]
    · rwa [← Option.some.inj hm]

/-- A completion is saved exactly if the list has room for it. -/
theorem saveCqe_view (h : m.Sane) (cqe : Cqe) : m.view.saveCqe cqe = (m.saveCqe cqe).map view
    ∧ ∀ m', m.saveCqe cqe = some m' → m'.Sane ∧ m'.cqRing = m.cqRing ∧ m'.fds = m.fds := by
  have hlength : m.view.pendingCqes.length = m.pendingCqeCount := by
    show ((List.range m.pendingCqeCount).map m.pendingCqes).length = _
    rw [List.length_map, List.length_range]
  rw [saveCqe, Uring.saveCqe, hlength]
  by_cases hroom : m.pendingCqeCount ≥ uringSavedCqes
  · rw [if_pos hroom, if_pos hroom]
    exact ⟨rfl, fun _ hnone => by cases hnone⟩
  · rw [if_neg hroom, if_neg hroom]
    refine ⟨?_, fun m' hm => ?_⟩
    · rw [Option.map_some]
      congr 1
      have hlist : (List.range (m.pendingCqeCount + 1)).map
          (Function.update m.pendingCqes m.pendingCqeCount cqe)
          = (List.range m.pendingCqeCount).map m.pendingCqes ++ [cqe] := by
        rw [List.range_succ, List.map_append, List.map_singleton, Function.update_self]
        congr 1
        refine List.map_congr_left fun j hj => ?_
        exact Function.update_of_ne (Nat.ne_of_lt (List.mem_range.mp hj)) ..
      rw [view, view, hlist]
      rfl
    · rw [← Option.some.inj hm]
      exact ⟨⟨h.sq, h.array, h.cq, not_le.mp hroom⟩, rfl, rfl⟩

theorem setFd_view (h : m.Sane) (fd : Int) (used : Bool) (events : Nat) :
    (m.setFd fd used events).1 = (m.view.setFd fd used events).1
      ∧ (m.setFd fd used events).2.view = (m.view.setFd fd used events).2
      ∧ (m.setFd fd used events).2.Sane := by
  refine ⟨rfl, ?_, h.fds _⟩
  unfold setFd Uring.setFd
  rcases fdSlot fd with _ | i <;> rfl

theorem finishCqe_view (m : Memory) (cqe : Cqe) {events : List IoEvent} {eventCap : Nat}
    (hroom : events.length < eventCap) :
    (m.finishCqe cqe events eventCap).1 = (m.view.finishCqe cqe events eventCap).1
      ∧ (m.finishCqe cqe events eventCap).2.view = (m.view.finishCqe cqe events eventCap).2
      ∧ (∃ fds, (m.finishCqe cqe events eventCap).2 = { m with fds })
      ∧ (m.finishCqe cqe events eventCap).1.length ≤ eventCap := by
  have hfinish := Uring.finishCqe_eq m.view cqe hroom
  refine ⟨rfl, ?_, ⟨_, rfl⟩, ?_⟩
  · show { m.view with fds := (m.view.finishCqe cqe events eventCap).2.fds } = _
    rw [hfinish]
    exact (Uring.settle_eq m.view cqe).symm
  · show (m.view.finishCqe cqe events eventCap).1.length ≤ eventCap
    rw [hfinish, List.length_append]
    have hone : (m.view.report cqe).toList.length ≤ 1 := by
      cases m.view.report cqe <;> simp
    omega

/-! ## The saved completions -/

/-- The loop over the saved completions does not look at where they are kept. -/
theorem finishSavedLoop_pending {eventCap : Nat} (u : Uring) (pendingCqes rest kept : List Cqe)
    {events : List IoEvent} (hcap : events.length ≤ eventCap) :
    Uring.finishSavedLoop eventCap rest kept events { u with pendingCqes }
      = Uring.finishSavedLoop eventCap rest kept events u := by
  have hfds : ({ u with pendingCqes } : Uring).fds = u.fds := rfl
  rw [Uring.finishSavedLoop_eq _ rest kept hcap, Uring.finishSavedLoop_eq _ rest kept hcap,
    (Uring.SameRegistrations.of_fds hfds).report, Uring.settleAll_eq, Uring.settleAll_eq u,
    Uring.settleAll_congr hfds]

/-- **Packing in place.** The entries before `keep` are those that have been kept, and those from `pos`
on are still to be processed. -/
theorem finishSavedLoop_view {eventCap left pos keep : Nat} {events : List IoEvent}
    (h : m.Sane) (hkeep : keep ≤ pos) (hleft : pos + left ≤ uringSavedCqes)
    (hcap : events.length ≤ eventCap) :
    (finishSavedLoop eventCap left pos keep events m).1
        = (Uring.finishSavedLoop eventCap ((List.range left).map fun j => m.pendingCqes (pos + j))
            ((List.range keep).map m.pendingCqes) events m.view).1
      ∧ (finishSavedLoop eventCap left pos keep events m).2.view
        = (Uring.finishSavedLoop eventCap ((List.range left).map fun j => m.pendingCqes (pos + j))
            ((List.range keep).map m.pendingCqes) events m.view).2
      ∧ (finishSavedLoop eventCap left pos keep events m).2.Sane
      ∧ (finishSavedLoop eventCap left pos keep events m).1.length ≤ eventCap := by
  induction left generalizing m pos keep events with
  | zero => exact ⟨rfl, rfl, ⟨h.sq, h.array, h.cq, by show keep ≤ _; omega⟩, hcap⟩
  | succ left ih =>
      have hlist : (List.range (left + 1)).map (fun j => m.pendingCqes (pos + j))
          = m.pendingCqes pos :: (List.range left).map fun j => m.pendingCqes (pos + 1 + j) := by
        rw [List.range_succ_eq_map, List.map_cons, List.map_map]
        congr 1
        refine List.map_congr_left fun j _ => ?_
        show m.pendingCqes (pos + (j + 1)) = _
        rw [Nat.add_right_comm, Nat.add_assoc]
      rw [hlist, finishSavedLoop, Uring.finishSavedLoop]
      by_cases hroom : events.length < eventCap
      · rw [if_pos hroom, if_pos hroom]
        obtain ⟨hevents, hview, ⟨fds, hfds⟩, hcap'⟩ := finishCqe_view m (m.pendingCqes pos) hroom
        rcases hres : m.finishCqe (m.pendingCqes pos) events eventCap with ⟨events', m'⟩
        rw [hres] at hevents hview hfds hcap'
        obtain rfl : m' = { m with fds } := hfds
        simp only
        rw [← hevents, ← hview]
        exact @ih { m with fds } _ _ _ (h.fds fds) (by omega) (by omega) hcap'
      · rw [if_neg hroom, if_neg hroom]
        -- the entry is moved to the place behind those that are kept
        generalize hpacked : Function.update m.pendingCqes keep (m.pendingCqes pos) = packed
        have hrest : (List.range left).map (fun j => packed (pos + 1 + j))
            = (List.range left).map fun j => m.pendingCqes (pos + 1 + j) := by
          rw [← hpacked]
          exact List.map_congr_left fun j _ => Function.update_of_ne (by omega) ..
        have hkept : (List.range (keep + 1)).map packed
            = (List.range keep).map m.pendingCqes ++ [m.pendingCqes pos] := by
          rw [← hpacked, List.range_succ, List.map_append, List.map_singleton, Function.update_self]
          congr 1
          exact List.map_congr_left fun j hj =>
            Function.update_of_ne (Nat.ne_of_lt (List.mem_range.mp hj)) ..
        have hmoved := @ih { m with pendingCqes := packed } (pos + 1) (keep + 1) events
          ⟨h.sq, h.array, h.cq, h.saved⟩ (by omega) (by omega) hcap
        simp only [hrest, hkept] at hmoved
        rw [← finishSavedLoop_pending m.view ((List.range m.pendingCqeCount).map packed) _ _ hcap]
        exact hmoved

theorem finishSavedCqes_view (h : m.Sane) (eventCap : Nat) :
    (m.finishSavedCqes [] eventCap).1 = (m.view.finishSavedCqes [] eventCap).1
      ∧ (m.finishSavedCqes [] eventCap).2.view = (m.view.finishSavedCqes [] eventCap).2
      ∧ (m.finishSavedCqes [] eventCap).2.Sane
      ∧ (m.finishSavedCqes [] eventCap).1.length ≤ eventCap := by
  have hloop := @finishSavedLoop_view m eventCap m.pendingCqeCount 0 0 [] h (Nat.le_refl 0)
    (by rw [Nat.zero_add]; exact h.saved) (Nat.zero_le _)
  simp only [Nat.zero_add] at hloop
  exact hloop

/-! ## The loops over the completion ring -/

/-- The completions from `head` on. -/
def cqFrom (m : Memory) (head : UInt32) : RingBuffer Cqe :=
  { head, tail := m.cqTail, cells := m.cqes }

/-- The first completion and the rest. -/
theorem cqFrom_cons {head : UInt32} {left : Nat} (hleft : (m.cqTail - head).toNat = left + 1) :
    (m.cqFrom head).toList cqOrder
        = m.cqes (head &&& cqRingMask) :: (m.cqFrom (head + 1)).toList cqOrder
      ∧ (m.cqTail - (head + 1)).toNat = left := by
  have hcount : (m.cqFrom head).count = left + 1 := hleft
  have hne : (m.cqFrom head).head ≠ (m.cqFrom head).tail := by
    intro heq
    rw [RingBuffer.count_eq_zero.mpr heq] at hcount
    cases hcount
  refine ⟨RingBuffer.toList_cons hne, ?_⟩
  show ((m.cqFrom head).advance 1).count = left
  rw [RingBuffer.count_advance (by rw [hcount]; omega), hcount]
  rfl

theorem cqFrom_nil {head : UInt32} (hleft : (m.cqTail - head).toNat = 0) :
    (m.cqFrom head).toList cqOrder = [] :=
  RingBuffer.toList_eq_nil.mpr (RingBuffer.count_eq_zero.mp hleft)

/-- The head is moved on. -/
theorem moveHead_sane (h : m.Sane) {head : UInt32} (hle : (m.cqTail - head).toNat ≤ 2 ^ cqOrder) :
    ({ m with cqHead := head } : Memory).Sane := ⟨h.sq, h.array, hle, h.saved⟩

theorem drainRing_view {fd : Fin uringMaxFds} {left : Nat} {head : UInt32} (h : m.Sane)
    (hleft : (m.cqTail - head).toNat = left) (hle : left ≤ 2 ^ cqOrder) :
    (drainRing fd left head m).1
        = (Uring.drainRing fd ((m.cqFrom head).toList cqOrder) m.view).1
      ∧ (drainRing fd left head m).2.view
        = (Uring.drainRing fd ((m.cqFrom head).toList cqOrder) m.view).2
      ∧ (drainRing fd left head m).2.Sane := by
  -- on the completions between the head and the tail
  induction left generalizing m head with
  | zero =>
      have hmoved := @moveHead_sane m h head (by rw [hleft]; exact Nat.zero_le _)
      rw [cqFrom_nil hleft]
      refine ⟨rfl, ?_, hmoved⟩
      show { m.view with cq := (m.cqFrom head).toList cqOrder } = { m.view with cq := [] }
      rw [cqFrom_nil hleft]
  | succ left ih =>
      obtain ⟨hcons, hnext⟩ := cqFrom_cons hleft
      rw [hcons, drainRing, Uring.drainRing]
      by_cases hmatch : (m.cqes (head &&& cqRingMask)).userData
          = cancelUserData fd (m.fds fd).generation
      · rw [if_pos hmatch, if_pos (show _ = cancelUserData fd (m.view.fds fd).generation from hmatch)]
        exact ⟨rfl, rfl, moveHead_sane h (by rw [hnext]; omega)⟩
      · rw [if_neg hmatch, if_neg (show ¬ _ = cancelUserData fd (m.view.fds fd).generation from hmatch)]
        obtain ⟨hview, hsane⟩ := saveCqe_view h (m.cqes (head &&& cqRingMask))
        rw [hview]
        rcases hsave : m.saveCqe (m.cqes (head &&& cqRingMask)) with _ | m'
        · exact ⟨rfl, rfl, h⟩
        · obtain ⟨hsane', hring, -⟩ := hsane m' hsave
          have htail : m'.cqTail = m.cqTail := congrArg RingBuffer.tail hring
          have hfrom : m'.cqFrom (head + 1) = m.cqFrom (head + 1) := by
            rw [cqFrom, cqFrom, htail, show m'.cqes = m.cqes from congrArg RingBuffer.cells hring]
          have hrest := @ih m' (head + 1) hsane' (by rw [htail]; exact hnext) (by omega)
          rw [hfrom] at hrest
          exact hrest

theorem finishRing_view {eventCap left : Nat} {head : UInt32} {events : List IoEvent} (h : m.Sane)
    (hleft : (m.cqTail - head).toNat = left) (hle : left ≤ 2 ^ cqOrder)
    (hcap : events.length ≤ eventCap) :
    (finishRing eventCap left head events m).1
        = (Uring.finishRing eventCap ((m.cqFrom head).toList cqOrder) events m.view).1
      ∧ (finishRing eventCap left head events m).2.view
        = (Uring.finishRing eventCap ((m.cqFrom head).toList cqOrder) events m.view).2
      ∧ (finishRing eventCap left head events m).2.Sane := by
  induction left generalizing m head events with
  | zero =>
      have hmoved := @moveHead_sane m h head (by rw [hleft]; exact Nat.zero_le _)
      rw [cqFrom_nil hleft]
      refine ⟨rfl, ?_, hmoved⟩
      show { m.view with cq := (m.cqFrom head).toList cqOrder } = { m.view with cq := [] }
      rw [cqFrom_nil hleft]
  | succ left ih =>
      obtain ⟨hcons, hnext⟩ := cqFrom_cons hleft
      rw [hcons, finishRing, Uring.finishRing]
      -- the loop stops when the caller's array is full, and the head stays there
      by_cases hroom : events.length < eventCap
      · rw [if_pos hroom, if_pos hroom]
        obtain ⟨hevents, hview, ⟨fds, hfds⟩, hcap'⟩ :=
          finishCqe_view m (m.cqes (head &&& cqRingMask)) hroom
        rcases hres : m.finishCqe (m.cqes (head &&& cqRingMask)) events eventCap with ⟨events', m'⟩
        rw [hres] at hevents hview hfds hcap'
        obtain rfl : m' = { m with fds } := hfds
        simp only
        rw [← hevents, ← hview]
        exact @ih { m with fds } _ _ (h.fds fds) hnext (by omega) hcap'
      · rw [if_neg hroom, if_neg hroom]
        refine ⟨rfl, ?_, moveHead_sane h (by rw [hleft]; exact hle)⟩
        show { m.view with cq := (m.cqFrom head).toList cqOrder } = _
        rw [hcons]

/-! ## Removal and waiting

What the kernel posts may differ between the two states, so each result says that there is something
for it to post with which the state with lists does the same. -/

/-- What a round of `h2_uring_drain_until_cancel` does behind `io_uring_enter`. -/
def drainEntered (fd : Fin uringMaxFds) (rest : List Uring.Round) (later : List Post) :
    Except Errno Nat → Uring → Option (Int × Uring)
  | .error .eintr, u => Uring.drainUntilCancel fd rest u
  | .error _, u => some (-1, u)
  | .ok _, u =>
      match Uring.drainRing fd (u.posts later).cq (u.posts later) with
      | (some ret, u) => some (ret, u)
      | (none, u) => Uring.drainUntilCancel fd rest u

theorem drainUntilCancel_view {fd : Fin uringMaxFds} (h : m.Sane) (rounds : List Uring.Round) :
    (∃ rounds', Uring.drainUntilCancel fd rounds' m.view
        = (drainUntilCancel fd rounds m).map fun r => (r.1, r.2.view))
      ∧ ∀ r, drainUntilCancel fd rounds m = some r → r.2.Sane := by
  induction rounds generalizing m with
  | nil => exact ⟨⟨[], rfl⟩, fun _ hnone => by cases hnone⟩
  | cons round rounds ih =>
      obtain ⟨hposted, posted, hview⟩ := posts_view h round.posted
      rw [drainUntilCancel]
      simp only
      generalize m.posts round.posted = m₁ at hposted hview ⊢
      -- the call of `io_uring_enter`, if there is one
      obtain ⟨hpair, hsane⟩ : (if m₁.view.cq = [] then m₁.view.enter 0 1 round.answer
            else (.ok 0, m₁.view))
          = ((if m₁.cqHead = m₁.cqTail then m₁.enter 0 1 round.answer else (.ok 0, m₁)).1,
            (if m₁.cqHead = m₁.cqTail then m₁.enter 0 1 round.answer else (.ok 0, m₁)).2.view)
          ∧ (if m₁.cqHead = m₁.cqTail then m₁.enter 0 1 round.answer else (.ok 0, m₁)).2.Sane := by
        obtain ⟨hsane, hentered⟩ := enter_view hposted 0 1 round.answer
        by_cases hempty : m₁.cqHead = m₁.cqTail
        · rw [if_pos hempty, if_pos ((cq_eq_nil m₁).mpr hempty)]
          exact ⟨Prod.ext rfl hentered.symm, hsane⟩
        · rw [if_neg hempty, if_neg (mt (cq_eq_nil m₁).mp hempty)]
          exact ⟨rfl, hposted⟩
      generalize (if m₁.cqHead = m₁.cqTail then m₁.enter 0 1 round.answer else (.ok 0, m₁)) = res
        at hpair hsane ⊢
      rcases res with ⟨entered, m₂⟩
      simp only at hpair hsane ⊢
      -- the same round in the state with lists
      have hround : ∀ later rest, Uring.drainUntilCancel fd
          ({ posted, answer := round.answer, later } :: rest) m.view
          = drainEntered fd rest later entered m₂.view := by
        intro later rest
        rw [Uring.drainUntilCancel]
        simp only
        rw [← hview, hpair]
        cases entered with
        | error e => cases e <;> rfl
        | ok n => rfl
      cases entered with
      | error e =>
          cases e with
          | eintr =>
              obtain ⟨⟨rounds', hrest⟩, hsane'⟩ := ih hsane
              exact ⟨⟨_ :: rounds', (hround [] rounds').trans hrest⟩, hsane'⟩
          | _ =>
              refine ⟨⟨[_], hround [] []⟩, fun r hr => ?_⟩
              rw [← Option.some.inj hr]
              exact hsane
      | ok n =>
          obtain ⟨hlater, later, hview''⟩ := posts_view hsane round.later
          have hdrain := @drainRing_view _ fd _ _ hlater rfl hlater.cq
          have hlast : ∀ rest, Uring.drainUntilCancel fd
              ({ posted, answer := round.answer, later } :: rest) m.view
              = match Uring.drainRing fd (m₂.posts round.later).view.cq (m₂.posts round.later).view with
                | (some ret, u) => some (ret, u)
                | (none, u) => Uring.drainUntilCancel fd rest u := by
            intro rest
            rw [hround, hview'']
            rfl
          simp only
          generalize m₂.posts round.later = m₃ at hlater hlast hdrain ⊢
          change (drainRing fd (m₃.cqTail - m₃.cqHead).toNat m₃.cqHead m₃).1
              = (Uring.drainRing fd m₃.view.cq m₃.view).1
            ∧ (drainRing fd (m₃.cqTail - m₃.cqHead).toNat m₃.cqHead m₃).2.view
              = (Uring.drainRing fd m₃.view.cq m₃.view).2
            ∧ (drainRing fd (m₃.cqTail - m₃.cqHead).toNat m₃.cqHead m₃).2.Sane at hdrain
          generalize Uring.drainRing fd m₃.view.cq m₃.view = drained at hlast hdrain
          generalize drainRing fd (m₃.cqTail - m₃.cqHead).toNat m₃.cqHead m₃ = drained' at hdrain ⊢
          obtain ⟨hret, hview₄, hsane₄⟩ := hdrain
          rcases drained with ⟨ret, u⟩
          rcases drained' with ⟨ret', m₄⟩
          obtain rfl : ret' = ret := hret
          obtain rfl : m₄.view = u := hview₄
          cases ret' with
          | none =>
              obtain ⟨⟨rounds', hrest⟩, hsane'⟩ := ih hsane₄
              exact ⟨⟨_ :: rounds', (hlast rounds').trans hrest⟩, hsane'⟩
          | some ret =>
              refine ⟨⟨[_], hlast []⟩, fun r hr => ?_⟩
              rw [← Option.some.inj hr]
              exact hsane₄

theorem cancelActivePoll_view {i : Fin uringMaxFds} (h : m.Sane) (answer : Entered)
    (rounds : List Uring.Round) :
    (∃ rounds', m.view.cancelActivePoll i answer rounds'
        = (m.cancelActivePoll i answer rounds).map fun r => (r.1, r.2.view))
      ∧ ∀ r, m.cancelActivePoll i answer rounds = some r → r.2.Sane := by
  -- both queue the same request
  have hsame : ({ opcode := .pollRemove
                  fd := 0
                  pollEvents := 0
                  addr := pollUserData i (m.fds i).generation
                  userData := cancelUserData i (m.fds i).generation
                  registration := (m.fds i).registrations } : Sqe) = m.view.cancelSqe i := rfl
  have hsame' : ({ opcode := .pollRemove
                   fd := 0
                   pollEvents := 0
                   addr := pollUserData i (m.view.fds i).generation
                   userData := cancelUserData i (m.view.fds i).generation
                   registration := (m.view.fds i).registrations } : Sqe) = m.view.cancelSqe i := rfl
  have hfds : m.view.fds = m.fds := rfl
  obtain ⟨hget, hgot⟩ := getSqe_view h (m.view.cancelSqe i)
  unfold cancelActivePoll Uring.cancelActivePoll
  rw [hsame, hsame', hfds]
  by_cases hactive : (m.fds i).active = false
  · simp only [if_pos hactive]
    refine ⟨⟨[], rfl⟩, fun r hr => ?_⟩
    rw [← Option.some.inj hr]
    exact h
  · simp only [if_neg hactive]
    rcases hsqe : m.getSqe (m.view.cancelSqe i) with _ | m₁
    · rw [hsqe] at hget
      simp only [hget, Option.map_none]
      refine ⟨⟨[], rfl⟩, fun r hr => ?_⟩
      rw [← Option.some.inj hr]
      exact h
    · rw [hsqe] at hget
      obtain ⟨hsane, hview⟩ := enter_view (hgot m₁ hsqe) 1 0 answer
      have hpair : m₁.view.enter 1 0 answer = (answer.result, (m₁.enter 1 0 answer).2.view) :=
        Prod.ext rfl hview.symm
      have hpair' : m₁.enter 1 0 answer = (answer.result, (m₁.enter 1 0 answer).2) := rfl
      simp only [hget, Option.map_some]
      rw [hpair, hpair']
      generalize (m₁.enter 1 0 answer).2 = m₂ at hsane ⊢
      rcases answer.result with e | n
      · refine ⟨⟨[], rfl⟩, fun r hr => ?_⟩
        rw [← Option.some.inj hr]
        exact hsane
      · exact drainUntilCancel_view hsane rounds

/-- **`h2_io_remove`** over the rings. -/
theorem remove_view (h : m.Sane) (fd : Int) (answer : Entered) (rounds : List Uring.Round) :
    (∃ rounds', m.view.remove fd answer rounds'
        = (m.remove fd answer rounds).map fun r => (r.1, r.2.view))
      ∧ ∀ r, m.remove fd answer rounds = some r → r.2.Sane := by
  unfold remove Uring.remove
  rcases fdSlot fd with _ | i
  · refine ⟨⟨[], rfl⟩, fun r hr => ?_⟩
    rw [← Option.some.inj hr]
    exact h
  · simp only
    by_cases hused : (m.fds i).used = false
    · rw [if_pos hused]
      refine ⟨⟨[], if_pos hused⟩, fun r hr => ?_⟩
      rw [← Option.some.inj hr]
      exact h
    · rw [if_neg hused]
      obtain ⟨⟨rounds', hcancel⟩, hsane⟩ := @cancelActivePoll_view m i h answer rounds
      rcases hret : m.cancelActivePoll i answer rounds with _ | ⟨ret, m'⟩
      · rw [hret] at hcancel
        refine ⟨⟨rounds', (if_neg hused).trans ?_⟩, fun r hr => by cases hr⟩
        rw [hcancel]
        rfl
      · rw [hret] at hcancel
        have hsane' := hsane _ hret
        simp only
        -- a cancellation that fails leaves the entry as it is
        by_cases hfailed : ret ≠ 0
        · rw [if_pos hfailed]
          refine ⟨⟨rounds', (if_neg hused).trans ?_⟩, fun r hr => ?_⟩
          · rw [hcancel]
            exact if_pos hfailed
          · rw [← Option.some.inj hr]
            exact hsane'
        · rw [if_neg hfailed]
          refine ⟨⟨rounds', (if_neg hused).trans ?_⟩, fun r hr => ?_⟩
          · rw [hcancel]
            exact if_neg hfailed
          · rw [← Option.some.inj hr]
            exact hsane'.fds _

theorem submitMissingLoop_view (h : m.Sane) (is : List (Fin uringMaxFds)) (submitted : Nat) :
    Uring.submitMissingLoop is submitted m.view
        = ((submitMissingLoop is submitted m).1, (submitMissingLoop is submitted m).2.view)
      ∧ (submitMissingLoop is submitted m).2.Sane := by
  induction is generalizing m submitted with
  | nil => exact ⟨rfl, h⟩
  | cons i rest ih =>
      obtain ⟨hget, hgot⟩ := getSqe_view h (m.view.pollSqe i)
      -- both queue the same request
      have hsame : ({ opcode := .pollAdd
                      fd := i
                      pollEvents := (m.fds i).events % 65536
                      addr := 0
                      userData := pollUserData i (m.fds i).generation
                      registration := (m.fds i).registrations } : Sqe) = m.view.pollSqe i := rfl
      have hsame' : ({ opcode := .pollAdd
                       fd := i
                       pollEvents := (m.view.fds i).events % 65536
                       addr := 0
                       userData := pollUserData i (m.view.fds i).generation
                       registration := (m.view.fds i).registrations } : Sqe) = m.view.pollSqe i := rfl
      rw [submitMissingLoop, Uring.submitMissingLoop, hsame, hsame']
      by_cases hskip : (m.fds i).used = false ∨ (m.fds i).active = true
      · rw [if_pos hskip, if_pos (show (m.view.fds i).used = false ∨ (m.view.fds i).active = true from
          hskip)]
        exact ih h submitted
      · rw [if_neg hskip, if_neg (show ¬ ((m.view.fds i).used = false
          ∨ (m.view.fds i).active = true) from hskip), hget]
        rcases hsqe : m.getSqe (m.view.pollSqe i) with _ | m₁
        · exact ⟨rfl, h⟩
        · exact @ih (m₁.setSlot i { m₁.fds i with active := true }) ((hgot m₁ hsqe).fds _)
            (submitted + 1)

theorem submitMissing_view (h : m.Sane) (answer : Entered) :
    m.view.submitMissing answer
        = ((m.submitMissing answer).1, (m.submitMissing answer).2.view)
      ∧ (m.submitMissing answer).2.Sane := by
  unfold submitMissing Uring.submitMissing
  generalize List.finRange uringMaxFds = is
  obtain ⟨hloop, hsane⟩ := submitMissingLoop_view h is 0
  rw [hloop]
  generalize submitMissingLoop is 0 m = res at hsane ⊢
  rcases res with ⟨submitted, m'⟩
  cases submitted with
  | zero => exact ⟨rfl, hsane⟩
  | succ submitted =>
      obtain ⟨hsane', hview⟩ := enter_view hsane (submitted + 1) 0 answer
      exact ⟨Prod.ext rfl hview.symm, hsane'⟩

theorem waitForEvent_view (h : m.Sane) (timeoutMs : Int) (extArg : Bool) (answer : Entered) :
    m.view.waitForEvent timeoutMs extArg answer
        = ((m.waitForEvent timeoutMs extArg answer).1,
          (m.waitForEvent timeoutMs extArg answer).2.view)
      ∧ (m.waitForEvent timeoutMs extArg answer).2.Sane := by
  obtain ⟨hsane, hview⟩ := enter_view h 0 1 answer
  unfold waitForEvent Uring.waitForEvent
  by_cases hzero : timeoutMs = 0
  · rw [if_pos hzero, if_pos hzero]
    exact ⟨rfl, h⟩
  · rw [if_neg hzero, if_neg hzero]
    by_cases hneg : timeoutMs < 0
    · rw [if_pos hneg, if_pos hneg]
      exact ⟨Prod.ext rfl hview.symm, hsane⟩
    · rw [if_neg hneg, if_neg hneg]
      by_cases hext : extArg = true
      · rw [if_pos hext, if_pos hext]
        exact ⟨Prod.ext rfl hview.symm, hsane⟩
      · rw [if_neg hext, if_neg hext, submitTimeoutSqe, Uring.submitTimeoutSqe]
        generalize Sqe.mk .timeout 0 0 0 uringTimeoutFlag 0 = sqe
        obtain ⟨hget, hgot⟩ := getSqe_view h sqe
        rw [hget]
        rcases hsqe : m.getSqe sqe with _ | m₁
        · exact ⟨rfl, h⟩
        · obtain ⟨hsane', hview'⟩ := enter_view (hgot m₁ hsqe) 1 1 answer
          exact ⟨Prod.ext rfl hview'.symm, hsane'⟩

theorem waits_view (h : m.Sane) (timeoutMs : Int) (extArg : Bool) (w : Uring.Waiting) :
    (∃ posted, ∀ submit later, m.view.waits timeoutMs extArg
        { submit, posted, wait := w.wait, later }
        = ((m.waits timeoutMs extArg w).1, (m.waits timeoutMs extArg w).2.view))
      ∧ (m.waits timeoutMs extArg w).2.Sane := by
  obtain ⟨hsane, posted, hview⟩ := posts_view h w.posted
  obtain ⟨hwait, hsane'⟩ := waitForEvent_view hsane timeoutMs extArg w.wait
  unfold waits Uring.waits
  simp only
  generalize m.posts w.posted = m₁ at hsane hview hwait hsane' ⊢
  by_cases hempty : m₁.cqHead = m₁.cqTail
  · rw [if_pos hempty]
    refine ⟨⟨posted, fun _ _ => ?_⟩, hsane'⟩
    rw [← hview, if_pos ((cq_eq_nil m₁).mpr hempty)]
    exact hwait
  · rw [if_neg hempty]
    refine ⟨⟨posted, fun _ _ => ?_⟩, hsane⟩
    rw [← hview, if_neg (mt (cq_eq_nil m₁).mp hempty)]

theorem deliver_view (h : m.Sane) (eventCap : Nat) (later : List Post) :
    (∃ later', m.view.deliver eventCap later'
        = ((m.deliver eventCap later).1, (m.deliver eventCap later).2.view))
      ∧ (m.deliver eventCap later).2.Sane := by
  obtain ⟨hevents, hview, hsane, hcap⟩ := finishSavedCqes_view h eventCap
  unfold deliver Uring.deliver
  generalize m.finishSavedCqes [] eventCap = res at hevents hview hsane hcap ⊢
  generalize m.view.finishSavedCqes [] eventCap = res' at hevents hview ⊢
  rcases res with ⟨events, m₁⟩
  rcases res' with ⟨events', u⟩
  obtain rfl : events = events' := hevents
  obtain rfl : m₁.view = u := hview
  obtain ⟨hlater, later', hview'⟩ := posts_view hsane later
  simp only
  generalize m₁.posts later = m₂ at hlater hview' ⊢
  obtain ⟨hevents, hview, hsane'⟩ := @finishRing_view m₂ eventCap _ m₂.cqHead events hlater rfl
    hlater.cq hcap
  refine ⟨⟨later', ?_⟩, hsane'⟩
  rw [← hview']
  exact (Prod.ext hevents hview).symm

/-- **`h2_io_wait`** over the rings. -/
theorem wait_view (h : m.Sane) (eventCap : Nat) (timeoutMs : Int) (extArg : Bool)
    (w : Uring.Waiting) :
    (∃ w', w'.submit = w.submit ∧ w'.wait = w.wait ∧ m.view.wait eventCap timeoutMs extArg w'
        = ((m.wait eventCap timeoutMs extArg w).1, (m.wait eventCap timeoutMs extArg w).2.view))
      ∧ (m.wait eventCap timeoutMs extArg w).2.Sane := by
  unfold wait Uring.wait
  by_cases hcap : eventCap = 0
  · rw [if_pos hcap]
    exact ⟨⟨w, rfl, rfl, if_pos hcap⟩, h⟩
  · rw [if_neg hcap]
    obtain ⟨hsubmit, hsane⟩ := submitMissing_view h w.submit
    generalize m.submitMissing w.submit = res at hsubmit hsane ⊢
    rcases res with ⟨submitted, m₁⟩
    -- the steps of `h2_io_wait` one after the other, each of which may end it
    cases submitted with
    | error e =>
        refine ⟨⟨w, rfl, rfl, (if_neg hcap).trans ?_⟩, hsane⟩
        rw [hsubmit]
    | ok n =>
        obtain ⟨⟨posted, hwaits⟩, hsane'⟩ := waits_view hsane timeoutMs extArg w
        simp only
        generalize m₁.waits timeoutMs extArg w = res at hwaits hsane' ⊢
        rcases res with ⟨waited, m₂⟩
        cases waited with
        | error e =>
            refine ⟨⟨{ submit := w.submit, posted, wait := w.wait, later := [] }, rfl, rfl,
              (if_neg hcap).trans ?_⟩, ?_⟩
            · rw [hsubmit]
              simp only [hwaits]
              cases e <;> rfl
            · cases e <;> exact hsane'
        | ok n =>
            obtain ⟨⟨later, hdeliver⟩, hsane''⟩ := deliver_view hsane' eventCap w.later
            refine ⟨⟨{ submit := w.submit, posted, wait := w.wait, later }, rfl, rfl,
              (if_neg hcap).trans ?_⟩, hsane''⟩
            rw [hsubmit]
            simp only [hwaits, hdeliver]

end Memory

/-! ## Runs -/

/-- What the program gets from a call. -/
inductive Response
  | status (ret : Int)
  | events (reported : Option (List IoEvent))
  | silent

/-- A call in the state with lists, if it returns. -/
def Uring.respond (u : Uring) : Call → Option (Response × Uring)
  | .addListener fd => some (.status (u.addListener fd).1, (u.addListener fd).2)
  | .addConnection fd => some (.status (u.addConnection fd).1, (u.addConnection fd).2)
  | .modConnection fd wantWrite =>
      some (.status (u.modConnection fd wantWrite).1, (u.modConnection fd wantWrite).2)
  | .remove fd answer rounds =>
      (u.remove fd answer rounds).map fun r => (.status r.1, r.2)
  | .wait eventCap timeoutMs extArg w =>
      some (.events (u.wait eventCap timeoutMs extArg w).1, (u.wait eventCap timeoutMs extArg w).2)
  | .kernel ps => some (.silent, u.posts ps)

def Uring.responds (u : Uring) : List Call → Option (List Response × Uring)
  | [] => some ([], u)
  | c :: cs =>
      match u.respond c with
      | none => none
      | some (response, u) => (u.responds cs).map fun r => (response :: r.1, r.2)

theorem Uring.respond_call (u : Uring) (c : Call) : (u.respond c).map Prod.snd = u.call c := by
  cases c with
  | remove fd answer rounds =>
      rw [Uring.respond, Uring.call, Option.map_map]
      rfl
  | _ => rfl

/-- The same function is called with the same arguments, and `io_uring_enter` answers the same. -/
inductive Call.Alike : Call → Call → Prop
  | addListener (fd : Int) : Alike (.addListener fd) (.addListener fd)
  | addConnection (fd : Int) : Alike (.addConnection fd) (.addConnection fd)
  | modConnection (fd : Int) (wantWrite : Bool) :
      Alike (.modConnection fd wantWrite) (.modConnection fd wantWrite)
  | remove (fd : Int) (answer : Entered) (rounds rounds' : List Uring.Round) :
      Alike (.remove fd answer rounds) (.remove fd answer rounds')
  | wait (eventCap : Nat) (timeoutMs : Int) (extArg : Bool) {w w' : Uring.Waiting}
      (hsubmit : w'.submit = w.submit) (hwait : w'.wait = w.wait) :
      Alike (.wait eventCap timeoutMs extArg w) (.wait eventCap timeoutMs extArg w')
  | kernel (ps ps' : List Post) : Alike (.kernel ps) (.kernel ps')

namespace Memory

variable {m m' : Memory}

/-- A call over the rings, if it returns. -/
def respond (m : Memory) : Call → Option (Response × Memory)
  | .addListener fd => some (.status (m.addListener fd).1, (m.addListener fd).2)
  | .addConnection fd => some (.status (m.addConnection fd).1, (m.addConnection fd).2)
  | .modConnection fd wantWrite =>
      some (.status (m.modConnection fd wantWrite).1, (m.modConnection fd wantWrite).2)
  | .remove fd answer rounds =>
      (m.remove fd answer rounds).map fun r => (.status r.1, r.2)
  | .wait eventCap timeoutMs extArg w =>
      some (.events (m.wait eventCap timeoutMs extArg w).1, (m.wait eventCap timeoutMs extArg w).2)
  | .kernel ps => some (.silent, m.posts ps)

def responds (m : Memory) : List Call → Option (List Response × Memory)
  | [] => some ([], m)
  | c :: cs =>
      match m.respond c with
      | none => none
      | some (response, m) => (m.responds cs).map fun r => (response :: r.1, r.2)

/-- **One call** over the rings is one call in the state with lists. -/
theorem respond_view (h : m.Sane) {c : Call} {response : Response}
    (hret : m.respond c = some (response, m')) :
    m'.Sane ∧ ∃ c', c.Alike c' ∧ m.view.respond c' = some (response, m'.view) := by
  -- the calls that only set an entry touch no ring
  have hset : ∀ fd events, (Response.status (m.setFd fd true events).1, (m.setFd fd true events).2)
      = (response, m') → m'.Sane
        ∧ (Response.status (m.view.setFd fd true events).1, (m.view.setFd fd true events).2)
          = (response, m'.view) := by
    intro fd events heq
    obtain ⟨hstatus, hview, hsane⟩ := setFd_view h fd true events
    obtain ⟨rfl, rfl⟩ := Prod.mk.inj heq
    exact ⟨hsane, by rw [hview, hstatus]⟩
  cases c with
  | addListener fd =>
      obtain ⟨hsane, hlist⟩ := hset fd _ (Option.some.inj hret)
      exact ⟨hsane, _, .addListener fd, congrArg some hlist⟩
  | addConnection fd =>
      obtain ⟨hsane, hlist⟩ := hset fd _ (Option.some.inj hret)
      exact ⟨hsane, _, .addConnection fd, congrArg some hlist⟩
  | modConnection fd wantWrite =>
      obtain ⟨hsane, hlist⟩ := hset fd _ (Option.some.inj hret)
      exact ⟨hsane, _, .modConnection fd wantWrite, congrArg some hlist⟩
  | remove fd answer rounds =>
      obtain ⟨⟨rounds', hlist⟩, hsane⟩ := remove_view h fd answer rounds
      obtain ⟨⟨ret, m₁⟩, hremove, heq⟩ := Option.map_eq_some_iff.mp hret
      obtain ⟨rfl, rfl⟩ := Prod.mk.inj heq
      refine ⟨hsane _ hremove, _, .remove fd answer rounds rounds', ?_⟩
      rw [Uring.respond, hlist, hremove]
      rfl
  | wait eventCap timeoutMs extArg w =>
      obtain ⟨⟨w', hsubmit, hwait, hlist⟩, hsane⟩ := wait_view h eventCap timeoutMs extArg w
      obtain ⟨rfl, rfl⟩ := Prod.mk.inj (Option.some.inj hret)
      refine ⟨hsane, _, .wait eventCap timeoutMs extArg hsubmit hwait, ?_⟩
      rw [Uring.respond, hlist]
  | kernel ps =>
      obtain ⟨hsane, ps', hlist⟩ := posts_view h ps
      obtain ⟨rfl, rfl⟩ := Prod.mk.inj (Option.some.inj hret)
      refine ⟨hsane, _, .kernel ps ps', ?_⟩
      rw [Uring.respond, hlist]

theorem responds_view (h : m.Sane) {cs : List Call} {responses : List Response}
    (hret : m.responds cs = some (responses, m')) :
    m'.Sane ∧ ∃ cs', List.Forall₂ Call.Alike cs cs'
      ∧ m.view.responds cs' = some (responses, m'.view) := by
  induction cs generalizing m responses with
  | nil =>
      obtain ⟨rfl, rfl⟩ := Prod.mk.inj (Option.some.inj hret)
      exact ⟨h, [], .nil, rfl⟩
  | cons c cs ih =>
      rw [responds] at hret
      rcases hone : m.respond c with _ | ⟨response, m₁⟩
      · rw [hone] at hret
        cases hret
      · rw [hone] at hret
        obtain ⟨⟨rest, m₂⟩, hrest, heq⟩ := Option.map_eq_some_iff.mp hret
        obtain ⟨rfl, rfl⟩ := Prod.mk.inj heq
        obtain ⟨hsane, c', halike, hlist⟩ := respond_view h hone
        obtain ⟨hsane', cs', halikes, hlists⟩ := ih hsane hrest
        refine ⟨hsane', c' :: cs', .cons halike halikes, ?_⟩
        rw [Uring.responds, hlist]
        simp only
        rw [hlists]
        rfl

end Memory

theorem Uring.responds_runs {u v : Uring} {cs : List Call} {responses : List Response}
    (hret : u.responds cs = some (responses, v)) : Uring.Runs (fun _ _ => True) u v := by
  induction cs generalizing u responses with
  | nil =>
      obtain ⟨rfl, rfl⟩ := Prod.mk.inj (Option.some.inj hret)
      exact Relation.ReflTransGen.refl
  | cons c cs ih =>
      rw [Uring.responds] at hret
      rcases hone : u.respond c with _ | ⟨response, u₁⟩
      · rw [hone] at hret
        cases hret
      · rw [hone] at hret
        obtain ⟨⟨rest, u₂⟩, hrest, heq⟩ := Option.map_eq_some_iff.mp hret
        obtain ⟨rfl, rfl⟩ := Prod.mk.inj heq
        have hcall : u.call c = some u₁ := by rw [← u.respond_call c, hone, Option.map_some]
        exact Relation.ReflTransGen.head ⟨c, trivial, hcall⟩ (ih hrest)

/-- **The rings are queues.** Wherever the counters of the two rings start and however often they wrap
around: in every run of the backend no ring and no array is overfilled, the kernel finds the requests
in the order in which they were queued, and each call returns what it returns for the state with
lists. What holds after every run with lists holds of the rings. -/
theorem rings_refine {sq cq : UInt32} {sqe : Sqe} {cqe : Cqe} {cs : List Call}
    {responses : List Response} {m : Memory}
    (hret : (Memory.init sq cq sqe cqe).responds cs = some (responses, m)) :
    m.Sane ∧ Uring.Runs (fun _ _ => True) Uring.init m.view
      ∧ ∃ cs', List.Forall₂ Call.Alike cs cs'
        ∧ Uring.init.responds cs' = some (responses, m.view) := by
  obtain ⟨hsane, cs', halike, hlist⟩ :=
    Memory.responds_view (Memory.init_sane sq cq sqe cqe) hret
  rw [Memory.init_view] at hlist
  exact ⟨hsane, Uring.responds_runs hlist, cs', halike, hlist⟩

/-- Both counters start one before they wrap around. -/
def lateMemory : Memory :=
  Memory.init 0xffffffff 0xffffffff
    { opcode := .pollAdd, fd := 0, pollEvents := 0, addr := 0, userData := 0, registration := 0 }
    { userData := 0, res := 0, flags := 0, registration := 0 }

/-- A descriptor is registered, and its poll is submitted. -/
theorem rings_refine_late : ∃ responses m,
    lateMemory.responds [.addConnection 5, .wait 1 0 true Uring.takingWaiting] = some (responses, m)
      ∧ m.Sane := by
  obtain ⟨responses, m, hret⟩ : ∃ responses m, lateMemory.responds
      [.addConnection 5, .wait 1 0 true Uring.takingWaiting] = some (responses, m) := ⟨_, _, rfl⟩
  exact ⟨responses, m, hret, (rings_refine hret).1⟩

end C11Omo.IoUring
