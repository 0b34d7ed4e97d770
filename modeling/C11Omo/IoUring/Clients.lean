import C11Omo.Http2.ServerRuns
import C11Omo.IoUring.Registrations

set_option autoImplicit false

/-! # Clients over the io_uring backend

`h2_close_client` does not look at the result of `h2_io_remove`. When the removal fails, the entry
of the descriptor stays in use after the descriptor has been closed, and a client that gets the same
number is not registered anew (`closed_client_registered`). In runs in which every removal goes
through, the entries in use are those of the listener and of the clients
(`closed_clients_deregistered`).
-/

namespace C11Omo.IoUring

open C11Omo.Http2 C11Omo.Lib

/-- The server, and the backend behind its `h2_io`. -/
structure Host where
  server : Server
  uring : Uring

namespace Host

/-- The state after `h2_server_run` has registered its listener. -/
def start (listenerFd : Int) : Host where
  server := Server.start listenerFd
  uring := (Uring.init.addListener listenerFd).2

/-- `h2_close_client`, if it returns. -/
def closeClient (h : Host) (pos : Fin serverMaxClients) (answer : Entered)
    (rounds : List Uring.Round) : Option Host :=
  if (h.server.clients pos).used then
    match h.uring.remove (h.server.clients pos).fd answer rounds with
    | none => none
    | some (_, uring) => some { server := h.server.closeClient pos, uring }
  else some h

/-- What the loop of `h2_accept_clients` does with a new file descriptor, if it goes on. -/
def acceptClient (h : Host) (fd : Int) (nonblock : Bool) (answer : Entered)
    (rounds : List Uring.Round) : Option Host :=
  if nonblock = false then some h
  else
    match h.server.allocClient fd with
    | none => some h
    | some (pos, server) =>
        match h.uring.addConnection fd with
        | (ret, uring) =>
            if ret ≠ 0 then closeClient { server, uring } pos answer rounds
            else
              some {
                server := { server.register fd false with
                  acceptedCount := (server.acceptedCount + 1) % 4294967296 }
                uring }

/-- `h2_io_mod_connection` for a client. -/
def modClient (h : Host) (pos : Fin serverMaxClients) (wantWrite : Bool) : Host :=
  if (h.server.clients pos).used then
    { server := h.server.register (h.server.clients pos).fd wantWrite
      uring := (h.uring.modConnection (h.server.clients pos).fd wantWrite).2 }
  else h

end Host

/-- What the server does with its backend: it accepts and closes clients, changes their interest,
and waits. The kernel completes requests in between. -/
inductive HostCall
  | accept (fd : Int) (nonblock : Bool) (answer : Entered) (rounds : List Uring.Round)
  | close (pos : Fin serverMaxClients) (answer : Entered) (rounds : List Uring.Round)
  | interest (pos : Fin serverMaxClients) (wantWrite : Bool)
  | wait (eventCap : Nat) (timeoutMs : Int) (extArg : Bool) (w : Uring.Waiting)
  | kernel (ps : List Post)

namespace Host

/-- The state after a call, if it returns. -/
def call (h : Host) : HostCall → Option Host
  | .accept fd nonblock answer rounds => h.acceptClient fd nonblock answer rounds
  | .close pos answer rounds => h.closeClient pos answer rounds
  | .interest pos wantWrite => some (h.modClient pos wantWrite)
  | .wait eventCap timeoutMs extArg w =>
      some { h with uring := (h.uring.wait eventCap timeoutMs extArg w).2 }
  | .kernel ps => some { h with uring := h.uring.posts ps }

/-- A run whose calls all meet a condition. -/
def Runs (allowed : Host → HostCall → Prop) : Host → Host → Prop :=
  Relation.ReflTransGen fun h h' => ∃ c, allowed h c ∧ h.call c = some h'

end Host

/-! ## Removals that go through -/

namespace Uring

variable {u v : Uring} {fd : Int} {i : Fin uringMaxFds}

/-- A removal has no poll to cancel; or there is room for the request, the kernel takes it, and its
answer is found with a result that counts as success, before the array of saved completions is
full. -/
def Deregisters (u : Uring) (fd : Int) (answer : Entered) (rounds : List Round) : Prop :=
  ∀ i, fdSlot fd = some i → (u.fds i).used = true → (u.fds i).active = true →
    u.sq.length < uringEntries ∧ (∃ n, answer.result = .ok n)
      ∧ (u.cancelling i answer).Answered i rounds

/-- What `h2_uring_drain_until_cancel` returns. -/
theorem drainUntilCancel_answered {rounds : List Round} {ret : Int}
    (h : drainUntilCancel i rounds u = some (ret, v)) : u.Answered i rounds ↔ ret = 0 := by
  obtain ⟨new, -, -, -, -, hend⟩ := drainUntilCancel_outcome h
  cases hend with
  | failed _ _ _ hanswer => exact iff_of_false hanswer (by decide)
  | found before cqe _ _ _ _ hanswer => exact hanswer
  | full before twice rest _ _ _ _ _ hanswer => exact iff_of_false hanswer (by decide)

theorem deregisters_slot (hslot : fdSlot fd = some i) (answer : Entered) (rounds : List Round) :
    u.Deregisters fd answer rounds ↔ ((u.fds i).used = true → (u.fds i).active = true →
      u.sq.length < uringEntries ∧ (∃ n, answer.result = .ok n)
        ∧ (u.cancelling i answer).Answered i rounds) := by
  constructor
  · exact fun h => h i hslot
  · intro h j hj
    rw [hslot] at hj
    obtain rfl := Option.some.inj hj
    exact h

/-- **A removal clears its entry** exactly if it goes through, and leaves all others alone. -/
theorem remove_clears {answer : Entered} {rounds : List Round} {ret : Int}
    (hslot : fdSlot fd = some i) (h : u.remove fd answer rounds = some (ret, v)) :
    ((v.fds i).used = false ↔ u.Deregisters fd answer rounds)
      ∧ ∀ j, j ≠ i → v.fds j = u.fds j := by
  have hclear : ∀ w : Uring, ((w.clear i).fds i).used = false := by
    intro w
    rw [clear, setSlot_same]
  have hdrain_fds : ∀ {w : Uring} {status : Int},
      drainUntilCancel i rounds (u.cancelling i answer) = some (status, w) → w.fds = u.fds := by
    intro w status hdrain
    obtain ⟨_, -, hfds, -⟩ := drainUntilCancel_outcome hdrain
    exact hfds
  rw [deregisters_slot hslot]
  cases remove_outcome hslot h with
  | unused hused =>
      refine ⟨iff_of_true hused fun hused' => ?_, fun j _ => rfl⟩
      exact absurd (hused.symm.trans hused') (by decide)
  | inactive hused hactive =>
      refine ⟨iff_of_true (hclear u) fun _ hactive' => ?_, fun j hj => setSlot_ne u hj _⟩
      exact absurd (hactive.symm.trans hactive') (by decide)
  | noRoom hused hactive hfull =>
      refine ⟨iff_of_false (by simp [hused]) fun hall => ?_, fun j _ => rfl⟩
      exact absurd (hall hused hactive).1 (not_lt.mpr hfull)
  | rejected hused hactive hroom hres =>
      refine ⟨iff_of_false ?_ fun hall => ?_, fun j _ => rfl⟩
      · rw [cancelling_fds, hused]
        decide
      · obtain ⟨-, ⟨n, hok⟩, -⟩ := hall hused hactive
        rw [hres] at hok
        cases hok
  | @cancelled hused hactive hroom n hres w hdrain =>
      refine ⟨iff_of_true (hclear _) fun _ _ => ?_, fun j hj => ?_⟩
      · exact ⟨hroom, ⟨n, hres⟩, (drainUntilCancel_answered hdrain).mpr rfl⟩
      · rw [clear, setSlot_ne _ hj, hdrain_fds hdrain]
  -- the loop has ended without the answer, and the entry stays
  | failed hused hactive hroom hres hstatus hdrain =>
      refine ⟨iff_of_false ?_ fun hall => ?_, fun j _ => ?_⟩
      · rw [hdrain_fds hdrain, hused]
        decide
      · exact hstatus ((drainUntilCancel_answered hdrain).mp (hall hused hactive).2.2)
      · rw [hdrain_fds hdrain]

end Uring

/-! ## Runs -/

namespace Host

variable {h h' : Host} {fd : Int} {pos : Fin serverMaxClients} {i : Fin uringMaxFds}
  {answer : Entered} {rounds : List Uring.Round}

/-- `accept` returns descriptors that are not open. -/
def Accepting (h : Host) : HostCall → Prop
  | .accept fd _ _ _ => h.server.Unopened fd
  | _ => True

/-- And the removal of a client that is closed goes through. -/
def Deregistering (h : Host) : HostCall → Prop
  | .accept fd _ _ _ => h.server.Unopened fd
  | .close pos answer rounds => (h.server.clients pos).used = true →
      h.uring.Deregisters (h.server.clients pos).fd answer rounds
  | _ => True

/-- The entries in use belong to the listener and to the clients. -/
def Owned (h : Host) : Prop :=
  ∀ i : Fin uringMaxFds, (h.uring.fds i).used = true → ¬ h.server.Unopened i

/-- A descriptor that is open stays so if the listener and the clients stay. -/
theorem opened_of_kept {s s' : Server} (hlistener : s'.listenerFd = s.listenerFd)
    (hkept : ∀ pos, (s.clients pos).used = true → (s.clients pos).fd = fd →
      (s'.clients pos).used = true ∧ (s'.clients pos).fd = fd)
    (h : ¬ s.Unopened fd) : ¬ s'.Unopened fd := by
  intro hopen
  refine h ⟨by rw [← hlistener]; exact hopen.1, fun pos hused hfd => ?_⟩
  obtain ⟨hused', hfd'⟩ := hkept pos hused hfd
  exact hopen.2 pos hused' hfd'

/-- Closing a client frees its place in the table, and nothing else. -/
theorem closeClient_clients {s : Server} (hused : (s.clients pos).used = true) :
    (s.closeClient pos).listenerFd = s.listenerFd
      ∧ ((s.closeClient pos).clients pos).used = false
      ∧ ∀ j, j ≠ pos → (s.closeClient pos).clients j = s.clients j := by
  rw [Server.closeClient, if_pos hused]
  refine ⟨rfl, ?_, fun j hj => Server.setClient_ne _ hj _⟩
  rw [Server.setClient_self]

/-- **A client is closed.** -/
theorem Owned.close (hown : h.Owned)
    (hgood : (h.server.clients pos).used = true →
      h.uring.Deregisters (h.server.clients pos).fd answer rounds)
    (hret : h.closeClient pos answer rounds = some h') : h'.Owned := by
  rw [closeClient] at hret
  rcases hused : (h.server.clients pos).used with _ | _
  · rw [hused, if_neg (by simp)] at hret
    cases hret
    exact hown
  · rw [hused, if_pos rfl] at hret
    rcases hremove : h.uring.remove (h.server.clients pos).fd answer rounds with _ | ⟨ret, uring⟩
    · rw [hremove] at hret
      cases hret
    · rw [hremove] at hret
      cases hret
      obtain ⟨hlistener, -, hothers⟩ := closeClient_clients hused
      intro i hi
      -- an entry that is still in use is not the one of the client
      have hne : (h.server.clients pos).fd ≠ i := by
        intro hfd
        have hslot : fdSlot (h.server.clients pos).fd = some i := fdSlot_eq_some.mpr hfd
        have hcleared := (Uring.remove_clears hslot hremove).1.mpr (hgood hused)
        exact absurd (hcleared.symm.trans hi) (by decide)
      have hbefore : (h.uring.fds i).used = true := by
        rcases hslot : fdSlot (h.server.clients pos).fd with _ | j
        · rw [Uring.remove, hslot] at hremove
          cases hremove
          exact hi
        · have hij : i ≠ j := by
            rintro rfl
            exact hne (fdSlot_eq_some.mp hslot)
          rw [← (Uring.remove_clears hslot hremove).2 i hij]
          exact hi
      refine opened_of_kept hlistener (fun j hj hfd => ?_) (hown i hbefore)
      have hjpos : j ≠ pos := by
        rintro rfl
        exact hne hfd
      rw [hothers j hjpos]
      exact ⟨hj, hfd⟩

/-- A new client comes into use at a place that is free. -/
theorem allocClient_clients {s s' : Server} (halloc : s.allocClient fd = some (pos, s')) :
    s'.listenerFd = s.listenerFd ∧ (s.clients pos).used = false ∧ (s'.clients pos).used = true
      ∧ (s'.clients pos).fd = fd ∧ ∀ j, j ≠ pos → s'.clients j = s.clients j := by
  rw [Server.allocClient] at halloc
  rcases hfind : (List.finRange serverMaxClients).find? (fun pos => !(s.clients pos).used)
    with _ | free
  · rw [hfind] at halloc
    cases halloc
  · rw [hfind] at halloc
    cases halloc
    have hfree := List.find?_some hfind
    rw [Server.setClient_self]
    exact ⟨rfl, by simpa using hfree, rfl, rfl, fun j hj => Server.setClient_ne s hj _⟩

/-- The ways in which a new file descriptor is dealt with: it is turned down, or it is not in range
and its client is closed again, or it is registered for a client. -/
theorem acceptClient_outcome {nonblock : Bool}
    (hret : h.acceptClient fd nonblock answer rounds = some h') :
    h' = h ∨ ∃ pos s', h.server.allocClient fd = some (pos, s')
      ∧ ((fdSlot fd = none
          ∧ closeClient { server := s', uring := h.uring } pos answer rounds = some h')
        ∨ ∃ i events, fdSlot fd = some i
          ∧ h' = {
            server := { s'.register fd false with
              acceptedCount := (s'.acceptedCount + 1) % 4294967296 }
            uring := h.uring.setSlot i (Registry.registered (h.uring.fds i) events) }) := by
  rw [acceptClient] at hret
  by_cases hblock : nonblock = false
  · rw [if_pos hblock] at hret
    exact Or.inl (Option.some.inj hret).symm
  · rw [if_neg hblock] at hret
    rcases halloc : h.server.allocClient fd with _ | ⟨pos, s'⟩
    · rw [halloc] at hret
      exact Or.inl (Option.some.inj hret).symm
    · rw [halloc, Uring.addConnection, Uring.setFd_eq] at hret
      rcases hslot : fdSlot fd with _ | i
      · rw [hslot] at hret
        exact Or.inr ⟨pos, s', rfl, Or.inl ⟨rfl, hret⟩⟩
      · rw [hslot] at hret
        exact Or.inr ⟨pos, s', rfl, Or.inr ⟨i, _, rfl, (Option.some.inj hret).symm⟩⟩

/-- **A client is accepted.** -/
theorem Owned.accept {nonblock : Bool} (hown : h.Owned)
    (hret : h.acceptClient fd nonblock answer rounds = some h') : h'.Owned := by
  rcases acceptClient_outcome hret with rfl | ⟨pos, s', halloc, hend⟩
  · exact hown
  · obtain ⟨hlistener, hfree, hused, hfd, hothers⟩ := allocClient_clients halloc
    -- the clients that are there stay
    have hkept : ∀ i : Fin uringMaxFds, ¬ h.server.Unopened i → ¬ s'.Unopened i := by
      intro i
      refine opened_of_kept hlistener fun j hj hjfd => ?_
      have hjpos : j ≠ pos := by
        rintro rfl
        exact absurd (hfree.symm.trans hj) (by decide)
      rw [hothers j hjpos]
      exact ⟨hj, hjfd⟩
    rcases hend with ⟨hslot, hclose⟩ | ⟨i, events, hslot, rfl⟩
    · have hnew : Owned { server := s', uring := h.uring } := fun i hi => hkept i (hown i hi)
      refine hnew.close (fun _ j hj => ?_) hclose
      rw [show (s'.clients pos).fd = fd from hfd, hslot] at hj
      cases hj
    · intro j hj
      by_cases hij : j = i
      · intro hopen
        refine hopen.2 pos hused ?_
        rw [hij, ← fdSlot_eq_some.mp hslot]
        exact hfd
      · replace hj : ((h.uring.setSlot i _).fds j).used = true := hj
        rw [Uring.setSlot_ne _ hij] at hj
        exact hkept j (hown j hj)

/-- **The registration of a new client** is a new one: the generation moves on. -/
theorem Owned.accept_fresh {nonblock : Bool} (hown : h.Owned) (hopen : h.server.Unopened fd)
    (hslot : fdSlot fd = some i) (hret : h.acceptClient fd nonblock answer rounds = some h')
    (hnew : ¬ h'.server.Unopened fd) :
    (h'.uring.fds i).registrations = (h.uring.fds i).registrations + 1
      ∧ (h'.uring.fds i).generation = ((h.uring.fds i).generation + 1) % 2 ^ 30 := by
  have hunused : (h.uring.fds i).used = false := by
    by_contra hused
    refine hown i (by simpa using hused) ?_
    rwa [← fdSlot_eq_some.mp hslot]
  rcases acceptClient_outcome hret with rfl | ⟨pos, s', -, ⟨hnone, -⟩ | ⟨j, events, hj, rfl⟩⟩
  · exact absurd hopen hnew
  · rw [hslot] at hnone
    cases hnone
  · rw [hslot] at hj
    obtain rfl := Option.some.inj hj
    show ((h.uring.setSlot i _).fds i).registrations = _
      ∧ ((h.uring.setSlot i _).fds i).generation = _
    rw [Uring.setSlot_same, Registry.registered, if_neg (by simp [hunused])]
    exact ⟨rfl, rfl⟩

theorem Owned.interest (hown : h.Owned) (wantWrite : Bool) : (h.modClient pos wantWrite).Owned := by
  rw [modClient]
  by_cases hused : (h.server.clients pos).used = true
  · rw [if_pos hused]
    intro j hj
    rw [Uring.modConnection, Uring.setFd_eq] at hj
    rcases hslot : fdSlot (h.server.clients pos).fd with _ | i
    · rw [hslot] at hj
      exact hown j hj
    · rw [hslot] at hj
      by_cases hij : j = i
      · intro hopen
        refine hopen.2 pos hused ?_
        rw [hij]
        exact fdSlot_eq_some.mp hslot
      · replace hj : ((h.uring.setSlot i _).fds j).used = true := hj
        rw [Uring.setSlot_ne _ hij] at hj
        exact hown j hj
  · rw [if_neg hused]
    exact hown

/-- Waiting and completions leave the registrations alone. -/
theorem Owned.sameRegistrations {uring : Uring} (hown : h.Owned)
    (hsame : Uring.SameRegistrations h.uring uring) : Owned { h with uring } := by
  intro i hi
  rw [show (uring.fds i).used = true ↔ (h.uring.fds i).used = true by rw [(hsame i).1]] at hi
  exact hown i hi

/-- Every call whose condition holds keeps the entries with their owners. -/
theorem Owned.call {c : HostCall} (hown : h.Owned) (hgood : h.Deregistering c)
    (hret : h.call c = some h') : h'.Owned := by
  cases c with
  | accept fd nonblock answer rounds => exact hown.accept hret
  | close pos answer rounds => exact hown.close hgood hret
  | interest pos wantWrite =>
      cases hret
      exact hown.interest wantWrite
  | wait eventCap timeoutMs extArg w =>
      cases hret
      obtain ⟨processed, new, -, -, -, hfds⟩ :=
        Uring.wait_processed h.uring eventCap timeoutMs extArg w
      have harmed := Uring.armedFor_sameRegistrations h.uring eventCap w
      have hsettled := Uring.settleAll_sameRegistrations (h.uring.armedFor eventCap w) processed
      exact hown.sameRegistrations ((harmed.trans hsettled).trans (.of_fds hfds))
  | kernel ps =>
      cases hret
      exact hown.sameRegistrations (.of_fds (Uring.posts_advances h.uring ps).fds)

theorem Owned.start (listenerFd : Int) : (Host.start listenerFd).Owned := by
  intro i hi hopen
  refine hopen.1 ?_
  rw [Host.start, Uring.addListener, Uring.setFd_eq] at hi
  rcases hslot : fdSlot listenerFd with _ | j
  · rw [hslot] at hi
    cases hi
  · rw [hslot] at hi
    by_cases hij : i = j
    · rw [hij]
      exact (fdSlot_eq_some.mp hslot).symm
    · replace hi : ((Uring.init.setSlot j _).fds i).used = true := hi
      rw [Uring.setSlot_ne _ hij] at hi
      cases hi

/-- **Closed clients are deregistered**, in every run in which the removals go through: an entry in
use belongs to the listener or to a client, so no poll is armed for another descriptor; and a new
client gets a new registration. -/
theorem closed_clients_deregistered {listenerFd : Int}
    (hrun : Runs Deregistering (start listenerFd) h) :
    (∀ i : Fin uringMaxFds, h.server.Unopened i → (h.uring.fds i).used = false)
      ∧ ∀ fd nonblock answer rounds h' i, h.server.Unopened fd → fdSlot fd = some i →
        h.acceptClient fd nonblock answer rounds = some h' → ¬ h'.server.Unopened fd →
          (h'.uring.fds i).registrations = (h.uring.fds i).registrations + 1
            ∧ (h'.uring.fds i).generation = ((h.uring.fds i).generation + 1) % 2 ^ 30 := by
  have hown : h.Owned := by
    induction hrun with
    | refl => exact .start listenerFd
    | tail _ hstep ih =>
        obtain ⟨c, hgood, hret⟩ := hstep
        exact ih.call hgood hret
  refine ⟨fun i hopen => ?_, fun fd nonblock answer rounds h' i hopen hslot hret hnew => ?_⟩
  · by_contra hused
    exact hown i (by simpa using hused) hopen
  · exact hown.accept_fresh hopen hslot hret hnew

/-- The first place is given to the first client. -/
theorem allocClient_first {s : Server} (hfree : (s.clients 0).used = false) (fd : Int) :
    s.allocClient fd = some (0, s.setClient 0 { fd, used := true, conn := Connection.init }) := by
  have hlist : List.finRange serverMaxClients = 0 :: (List.finRange 127).map Fin.succ :=
    List.finRange_succ
  rw [Server.allocClient, hlist, List.find?_cons_of_pos (by simp [hfree])]

/-- A server that listens on descriptor 3, whose poll is in the kernel. -/
def listening : Host where
  server := Server.start 3
  uring := { Uring.init with
    inFlight := [{
      opcode := .pollAdd
      fd := 3
      pollEvents := 0x19
      addr := 0
      userData := pollUserData 3 1
      registration := 1 }]
    fds := Function.update Uring.init.fds 3
      { used := true, active := true, events := 0x19, generation := 1, registrations := 1 }
    entered := [{ toSubmit := 1, minComplete := 0 }] }

theorem listening_reached : (start 3).call (.wait 1 0 true Uring.takingWaiting) = some listening := by
  obtain ⟨u, hu⟩ : ∃ u, u = (Uring.init.addListener 3).2 := ⟨_, rfl⟩
  have hothers : ∀ j, j ≠ 3 → (u.fds j).used = true → (u.fds j).active = true := by
    intro j hj hused
    have hinit : u.fds j = Uring.init.fds j := by
      rw [hu]
      exact Function.update_of_ne hj _ _
    rw [hinit] at hused
    cases hused
  have hwait := Uring.wait_arms (u := u) (i := 3) (by rw [hu]; rfl) (by rw [hu]; rfl) hothers
    (by rw [hu]; decide) (by rw [hu]; rfl) (by rw [hu]; rfl)
  have hfds : (u.arm 3).fds = listening.uring.fds := by
    rw [hu]
    exact Function.update_idem _ _ _
  have harm : ((u.arm 3).enter 1 0 Uring.takingWaiting.submit).2
      = { listening.uring with fds := (u.arm 3).fds } := by
    rw [hu]
    rfl
  have hafter : (u.wait 1 0 true Uring.takingWaiting).2 = listening.uring := by
    have hsome := hwait
    rw [harm, hfds] at hsome
    exact Option.some.inj hsome
  have hcall : (start 3).call (.wait 1 0 true Uring.takingWaiting)
      = some { start 3 with uring := (u.wait 1 0 true Uring.takingWaiting).2 } := by
    rw [hu]
    rfl
  rw [hcall, hafter]
  rfl

/-- A client on descriptor 5. -/
def serving : Host where
  server := { (listening.server.setClient 0
      { fd := 5, used := true, conn := Connection.init }).register 5 false with acceptedCount := 1 }
  uring := (listening.uring.addConnection 5).2

theorem serving_reached : listening.call (.accept 5 true ⟨0, .ok 0⟩ []) = some serving := by
  have halloc := allocClient_first (s := listening.server) rfl 5
  have hadd : listening.uring.addConnection 5 = (0, serving.uring) := rfl
  rw [call, acceptClient, if_neg (by decide), halloc]
  simp only [hadd]
  rfl

theorem serving_armed : serving.call (.wait 1 0 true Uring.takingWaiting)
    = some { serving with
      uring := ((serving.uring.arm 5).enter 1 0 Uring.takingWaiting.submit).2 } := by
  have hothers : ∀ j, j ≠ 5 → (serving.uring.fds j).used = true →
      (serving.uring.fds j).active = true := by
    intro j hj hused
    have hsame : serving.uring.fds j = listening.uring.fds j := Function.update_of_ne hj _ _
    rw [hsame] at hused ⊢
    by_cases hj3 : j = 3
    · rw [hj3]
      rfl
    · have hinit : listening.uring.fds j = Uring.init.fds j := Function.update_of_ne hj3 _ _
      rw [hinit] at hused
      cases hused
  have hwait := Uring.wait_arms (u := serving.uring) (i := 5) rfl rfl hothers (by decide) rfl rfl
  have hafter := Option.some.inj hwait
  rw [call, hafter]

/-- The poll of the client is in the kernel. -/
def armed : Host :=
  { serving with uring := ((serving.uring.arm 5).enter 1 0 Uring.takingWaiting.submit).2 }

theorem armed_ran {allowed : Host → HostCall → Prop}
    (hwait : ∀ h, allowed h (.wait 1 0 true Uring.takingWaiting))
    (haccept : ∀ h : Host, h.server.Unopened 5 → allowed h (.accept 5 true ⟨0, .ok 0⟩ [])) :
    Runs allowed (start 3) armed := by
  have hopen : listening.server.Unopened 5 := ⟨by decide, fun pos hused => by cases hused⟩
  have hfirst : Runs allowed (start 3) listening :=
    .single ⟨.wait 1 0 true Uring.takingWaiting, hwait _, listening_reached⟩
  have hsecond : Runs allowed (start 3) serving :=
    .tail hfirst ⟨.accept 5 true ⟨0, .ok 0⟩ [], haccept _ hopen, serving_reached⟩
  exact .tail hsecond ⟨.wait 1 0 true Uring.takingWaiting, hwait _, serving_armed⟩

/-- Once it is closed, nothing is open on its descriptor. -/
theorem armed_closed : (armed.server.closeClient 0).Unopened 5 := by
  have hused : (armed.server.clients 0).used = true := rfl
  obtain ⟨-, hfree, hothers⟩ := closeClient_clients hused
  refine ⟨by decide, fun pos hpos => ?_⟩
  by_cases h0 : pos = 0
  · rw [h0] at hpos
    exact absurd (hfree.symm.trans hpos) (by decide)
  · rw [hothers pos h0] at hpos
    have hnone : serving.server.clients pos = listening.server.clients pos :=
      Server.setClient_ne listening.server h0 _
    have hsame : armed.server.clients pos = serving.server.clients pos := rfl
    rw [hsame, hnone] at hpos
    cases hpos

/-- The kernel cancels the poll, which completes with `ECANCELED`. -/
def cancellingRound : Uring.Round :=
  { posted := [{ pos := 1, res := -125, flags := 0 }, { pos := 1, res := 0, flags := 0 }]
    answer := { consumed := 0, result := .ok 0 }
    later := [] }

/-- A client is accepted, its poll is armed, and it is closed with its poll cancelled. Its entry is
clear, and the next client with its descriptor has a registration of its own. -/
theorem closed_clients_deregistered_cancelled : ∃ h h', Runs Deregistering (start 3) h
    ∧ armed.closeClient 0 ⟨1, .ok 1⟩ [cancellingRound] = some h
    ∧ (h.uring.fds 5).used = false
    ∧ h.acceptClient 5 true ⟨0, .ok 0⟩ [] = some h'
    ∧ (h'.uring.fds 5).registrations = (h.uring.fds 5).registrations + 1 := by
  obtain ⟨v, hdrain⟩ : ∃ v, Uring.drainUntilCancel 5 [cancellingRound]
      (armed.uring.cancelling 5 ⟨1, .ok 1⟩) = some (0, v) := ⟨_, rfl⟩
  have hgood : Deregistering armed (.close 0 ⟨1, .ok 1⟩ [cancellingRound]) := by
    intro _
    refine (Uring.deregisters_slot (fdSlot_slot 5) _ _).mpr fun _ _ => ⟨by decide, ⟨1, rfl⟩, ?_⟩
    exact (Uring.drainUntilCancel_answered hdrain).mpr rfl
  obtain ⟨h, hh, hserver⟩ : ∃ h, armed.closeClient 0 ⟨1, .ok 1⟩ [cancellingRound] = some h
    ∧ h.server = armed.server.closeClient 0 := ⟨_, rfl, rfl⟩
  have hrun : Runs Deregistering (start 3) h :=
    .tail (armed_ran (fun _ => trivial) fun _ hopen => hopen) ⟨_, hgood, hh⟩
  have hopen : h.server.Unopened 5 := by
    rw [hserver]
    exact armed_closed
  have hfree : (h.server.clients 0).used = false := by
    rw [hserver]
    rfl
  obtain ⟨h', haccept, hnew⟩ : ∃ h', h.acceptClient 5 true ⟨0, .ok 0⟩ [] = some h'
      ∧ ¬ h'.server.Unopened 5 := by
    obtain ⟨uring, hadd⟩ : ∃ uring, h.uring.addConnection 5 = (0, uring) := ⟨_, rfl⟩
    rw [acceptClient, if_neg (by decide), allocClient_first hfree 5]
    simp only [hadd]
    exact ⟨_, rfl, fun hnot => hnot.2 0 rfl rfl⟩
  obtain ⟨hclear, hfresh⟩ := closed_clients_deregistered hrun
  exact ⟨h, h', hrun, hh, hclear 5 hopen, haccept,
    (hfresh 5 true _ _ h' 5 hopen (fdSlot_slot 5) haccept hnew).1⟩

/-- The client on descriptor 5 is closed while `io_uring_enter` fails. Its entry stays in use, and
the next client with this descriptor keeps the generation. -/
theorem closed_client_registered : ∃ g h h', Runs Accepting (start 3) g
    ∧ (g.server.clients 0).used = true ∧ (g.server.clients 0).fd = 5
    ∧ g.closeClient 0 ⟨0, .error .other⟩ [] = some h
    ∧ h.server.Unopened 5 ∧ (h.uring.fds 5).used = true
    ∧ h.acceptClient 5 true ⟨0, .ok 0⟩ [] = some h' ∧ ¬ h'.server.Unopened 5
    ∧ (h'.uring.fds 5).generation = (h.uring.fds 5).generation := by
  have hrun : Runs Accepting (start 3) armed := armed_ran (fun _ => trivial) fun _ hopen => hopen
  obtain ⟨h, hh⟩ : ∃ h : Host, h = {
    server := armed.server.closeClient 0
    uring := armed.uring.cancelling 5 ⟨0, .error .other⟩ } := ⟨_, rfl⟩
  have hclose : armed.closeClient 0 ⟨0, .error .other⟩ [] = some h := by
    rw [hh]
    rfl
  have hclosed : h.server.Unopened 5 := by
    rw [hh]
    exact armed_closed
  have hfree : (h.server.clients 0).used = false := by
    rw [hh]
    rfl
  have halloc := allocClient_first hfree 5
  obtain ⟨h', hh'⟩ : ∃ h' : Host, h' = {
    server := { (h.server.setClient 0
        { fd := 5, used := true, conn := Connection.init }).register 5 false with
      acceptedCount := (h.server.acceptedCount + 1) % 4294967296 }
    uring := (h.uring.addConnection 5).2 } := ⟨_, rfl⟩
  have hadd : h.uring.addConnection 5 = (0, h'.uring) := by
    rw [hh', hh]
    rfl
  have haccept : h.acceptClient 5 true ⟨0, .ok 0⟩ [] = some h' := by
    rw [acceptClient, if_neg (by decide), halloc]
    simp only [hadd]
    rw [hh']
    rfl
  -- the server has no client left on 5, but the entry is still in use
  refine ⟨armed, h, h', hrun, rfl, rfl, hclose, hclosed, by rw [hh]; rfl, haccept,
    fun hnot => hnot.2 0 (by rw [hh']; rfl) (by rw [hh']; rfl), ?_⟩
  rw [hh', hh]
  rfl

end Host

end C11Omo.IoUring
