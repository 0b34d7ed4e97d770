import C11Omo.Http2.Server

set_option autoImplicit false

/-! # Runs of the server

A run of `h2_server_run` is a sequence of turns (`Served`), in whatever order the events come and
whatever the system calls return. A `Watch` keeps beside the state what has happened to the
sockets of the clients. The three results about closing and about interest in writing say exactly
which turns go wrong: `served_invariant` is the induction rule, and each result is one equivalence
about one turn.
-/

namespace C11Omo.Http2

open C11Omo.Lib

/-- Codes of `feed` calls in a row: one of them comes after a failure. -/
def lateFeed : (failed : Bool) → List ErrorCode → Bool
  | _, [] => false
  | failed, code :: rest => failed || lateFeed (code ≠ .ok) rest

/-- The server, and what has happened to the sockets of the clients in use: whether a `write` has
failed with a hard error, and whether a `feed` has failed. `fedLate` says that some client was fed
after a `feed` had failed for it. -/
structure Watch where
  server : Server
  writeFailed : Fin serverMaxClients → Bool
  feedFailed : Fin serverMaxClients → Bool
  fedLate : Bool

/-- The client that an event is for. -/
def Server.target (s : Server) (turn : Turn) : Option (Fin serverMaxClients) :=
  if turn.event.fd = s.listenerFd then none else s.findClient turn.event.fd

namespace Watch

def start (listenerFd : Int) : Watch :=
  { server := Server.start listenerFd
    writeFailed := fun _ => false
    feedFailed := fun _ => false
    fedLate := false }

/-- One event is handled. A socket that is closed is forgotten. -/
def turn (w : Watch) (turn : Turn) : Watch :=
  match w.server.target turn with
  | none => { w with server := w.server.turn turn }
  | some pos =>
      let handling := w.server.handling turn pos
      let codes := handling.fed.map Prod.snd
      { server := w.server.turn turn
        writeFailed := Function.update w.writeFailed pos
          (!handling.closes && (w.writeFailed pos || handling.flushed ≠ 0))
        feedFailed := Function.update w.feedFailed pos
          (!handling.closes && (w.feedFailed pos || codes.any (· ≠ .ok)))
        fedLate := w.fedLate || lateFeed (w.feedFailed pos) codes }

/-- The events that one `h2_io_wait` reports. -/
def turns (w : Watch) (ts : List Turn) : Watch := ts.foldl turn w

end Watch

/-! ## What the operating system promises -/

/-- A file descriptor that is not open in the server. -/
def Server.Unopened (s : Server) (fd : Int) : Prop :=
  fd ≠ s.listenerFd ∧ ∀ pos, (s.clients pos).used = true → (s.clients pos).fd ≠ fd

/-- `accept` returns file descriptors that are not open. -/
def Server.AcceptsUnopened (s : Server) : List AcceptOutcome → Prop
  | [] => True
  | .interrupted :: rest => s.AcceptsUnopened rest
  | .accepted fd nonblock added :: rest =>
      s.Unopened fd ∧ (s.acceptClient fd nonblock added).AcceptsUnopened rest

/-- The turns in a row are possible, and each meets a condition in the state where it is taken. -/
def Watch.Along (cond : Watch → Turn → Prop) (w : Watch) : List Turn → Prop
  | [] => True
  | t :: ts => w.server.AcceptsUnopened t.accepts.outcomes ∧ cond w t ∧ (w.turn t).Along cond ts

/-- The states in which `h2_server_run` comes to the head of its loop, if every turn meets the
condition. One `h2_io_wait` reports at most 64 events. -/
inductive Served (listenerFd : Int) (maxConnections : Nat) (cond : Watch → Turn → Prop) :
    Watch → Prop
  | start : Served listenerFd maxConnections cond (Watch.start listenerFd)
  | wait {w : Watch} (ts : List Turn) (h : Served listenerFd maxConnections cond w)
      (hrun : w.server.stops maxConnections = false) (hcap : ts.length ≤ 64)
      (hts : w.Along cond ts) : Served listenerFd maxConnections cond (w.turns ts)

/-! ## The table of clients -/

namespace Server

variable {s s' s'' : Server} {pos i : Fin serverMaxClients} {fd : Int}

/-- The clients in use have different file descriptors. -/
def Distinct (s : Server) : Prop :=
  ∀ i j, (s.clients i).used = true → (s.clients j).used = true →
    (s.clients i).fd = (s.clients j).fd → i = j

@[simp] theorem setClient_self (s : Server) (pos : Fin serverMaxClients) (client : Client) :
    (s.setClient pos client).clients pos = client := by simp [setClient]

theorem setClient_ne (s : Server) (h : i ≠ pos) (client : Client) :
    (s.setClient pos client).clients i = s.clients i := by
  simp [setClient, Function.update_of_ne h]

theorem findClient_eq_some (h : s.findClient fd = some pos) :
    (s.clients pos).used = true ∧ (s.clients pos).fd = fd := by
  have hp := List.find?_some h
  simpa using hp

theorem findClient_used (hd : s.Distinct) (hused : (s.clients pos).used = true) :
    s.findClient (s.clients pos).fd = some pos := by
  rcases hfind : s.findClient (s.clients pos).fd with _ | i
  · have hnone := List.find?_eq_none.mp hfind pos (List.mem_finRange pos)
    simp [hused] at hnone
  · obtain ⟨hi, hfd⟩ := findClient_eq_some hfind
    rw [hd i pos hi hused hfd]

/-- What accepting clients leaves alone: the clients in use and their registrations. A client that
comes into use has a fresh connection. -/
structure Accepted (s s' : Server) : Prop where
  slot : ∀ i, s'.clients i = s.clients i
    ∨ (s.clients i).used = false ∧ ((s'.clients i).used = true →
        (s'.clients i).conn = Connection.init)
  io : ∀ i, (s.clients i).used = true → s'.io (s.clients i).fd = s.io (s.clients i).fd
  distinct : s.Distinct → s'.Distinct
  listenerFd : s'.listenerFd = s.listenerFd

theorem Accepted.refl (s : Server) : Accepted s s where
  slot _ := Or.inl rfl
  io _ _ := rfl
  distinct := id
  listenerFd := rfl

/-- A client in use is not touched. -/
theorem Accepted.kept (h : Accepted s s') (hused : (s.clients i).used = true) :
    s'.clients i = s.clients i := by
  rcases h.slot i with heq | ⟨hfree, -⟩
  · exact heq
  · rw [hused] at hfree
    cases hfree

theorem Accepted.trans (h : Accepted s s') (h' : Accepted s' s'') : Accepted s s'' where
  slot i := by
    rcases h.slot i with heq | ⟨hfree, hnew⟩
    · rw [← heq]
      exact h'.slot i
    · rcases h'.slot i with heq | ⟨hfree', hnew'⟩
      · rw [heq]
        exact Or.inr ⟨hfree, hnew⟩
      · exact Or.inr ⟨hfree, hnew'⟩
  io i hused := by
    have hkept := h.kept hused
    have hio := h'.io i (by rwa [hkept])
    rw [hkept] at hio
    exact hio.trans (h.io i hused)
  distinct hd := h'.distinct (h.distinct hd)
  listenerFd := h'.listenerFd.trans h.listenerFd

theorem acceptClient_accepted (hfd : s.Unopened fd) (nonblock added : Bool) :
    Accepted s (s.acceptClient fd nonblock added) := by
  unfold acceptClient
  by_cases hblock : nonblock = false
  · rw [if_pos hblock]
    exact .refl s
  · rw [if_neg hblock, allocClient]
    rcases hfree : (List.finRange serverMaxClients).find? (fun pos => !(s.clients pos).used)
      with _ | pos
    · exact .refl s
    · have hunused : (s.clients pos).used = false := by
        have hp := List.find?_some hfree
        simpa using hp
      -- the file descriptor belongs to no client in use
      have hother : ∀ i, (s.clients i).used = true → (s.clients i).fd ≠ fd := hfd.2
      have hne : ∀ {i}, (s.clients i).used = true → i ≠ pos := by
        rintro i hi rfl
        rw [hunused] at hi
        cases hi
      simp only
      by_cases hadd : added = false
      · rw [if_pos hadd, closeClient, if_pos (by simp)]
        refine ⟨fun i => ?_, fun i hi => ?_, fun hd i j hi hj hij => ?_, rfl⟩
        · by_cases hpos : i = pos
          · subst hpos
            exact Or.inr ⟨hunused, fun h => by simp at h⟩
          · refine Or.inl ?_
            rw [setClient_ne _ hpos]
            exact setClient_ne s hpos _
        · show Function.update s.io ((s.setClient pos _).clients pos).fd none _ = _
          rw [setClient_self, Function.update_of_ne (hother i hi)]
        · have hclients : ∀ {i}, i ≠ pos → ∀ client, (((s.setClient pos
              { fd, used := true, conn := Connection.init }).unregister
              ((s.setClient pos { fd, used := true, conn := Connection.init }).clients pos).fd).setClient
                pos client).clients i = s.clients i := by
            intro i hpos client
            rw [setClient_ne _ hpos]
            exact setClient_ne s hpos _
          have hi' : i ≠ pos := by
            rintro rfl
            simp at hi
          have hj' : j ≠ pos := by
            rintro rfl
            simp at hj
          rw [hclients hi'] at hi hij
          rw [hclients hj'] at hj hij
          exact hd i j hi hj hij
      · rw [if_neg hadd]
        refine ⟨fun i => ?_, fun i hi => ?_, fun hd i j hi hj hij => ?_, rfl⟩
        · by_cases hpos : i = pos
          · subst hpos
            refine Or.inr ⟨hunused, fun _ => ?_⟩
            show ((s.setClient i _).clients i).conn = _
            rw [setClient_self]
          · exact Or.inl (setClient_ne s hpos _)
        · show Function.update s.io fd (some false) _ = _
          rw [Function.update_of_ne (hother i hi)]
        · have hself : ∀ i, i = pos → ((s.setClient pos
              { fd, used := true, conn := Connection.init }).clients i).fd = fd := by
            rintro i rfl
            rw [setClient_self]
          have hclients : ∀ {i}, i ≠ pos → (s.setClient pos
              { fd, used := true, conn := Connection.init }).clients i = s.clients i :=
            fun hpos => setClient_ne s hpos _
          change ((s.setClient pos _).clients i).used = true at hi
          change ((s.setClient pos _).clients j).used = true at hj
          change ((s.setClient pos _).clients i).fd = ((s.setClient pos _).clients j).fd at hij
          by_cases hpi : i = pos <;> by_cases hpj : j = pos
          · exact hpi.trans hpj.symm
          · rw [hself i hpi, hclients hpj] at hij
            rw [hclients hpj] at hj
            exact absurd hij.symm (hother j hj)
          · rw [hself j hpj, hclients hpi] at hij
            rw [hclients hpi] at hi
            exact absurd hij (hother i hi)
          · rw [hclients hpi] at hi hij
            rw [hclients hpj] at hj hij
            exact hd i j hi hj hij

theorem acceptClients_accepted {outcomes : List AcceptOutcome}
    (hopen : s.AcceptsUnopened outcomes) (last : AcceptEnd) :
    Accepted s (s.acceptClients outcomes last).2 := by
  induction outcomes generalizing s with
  | nil => cases last <;> exact .refl s
  | cons outcome rest ih =>
      cases outcome with
      | interrupted => exact ih hopen
      | accepted fd nonblock added =>
          exact (acceptClient_accepted hopen.1 nonblock added).trans (ih hopen.2)

/-! ## One turn -/

variable {t : Turn}

theorem target_eq_some (h : s.target t = some pos) : (s.clients pos).used = true := by
  unfold target at h
  by_cases hfd : t.event.fd = s.listenerFd
  · rw [if_pos hfd] at h
    cases h
  · rw [if_neg hfd] at h
    exact (findClient_eq_some h).1

/-- A turn that is for no client accepts clients at most. -/
theorem turn_accepted (h : s.target t = none) (hopen : s.AcceptsUnopened t.accepts.outcomes) :
    Accepted s (s.turn t) := by
  unfold target at h
  unfold turn
  by_cases hfd : t.event.fd = s.listenerFd
  · rw [if_pos hfd]
    by_cases hread : t.event.readable = true
    · have hacc := acceptClients_accepted hopen t.accepts.last
      rw [if_pos hread]
      rcases hres : s.acceptClients t.accepts.outcomes t.accepts.last with ⟨ret, s'⟩
      rw [hres] at hacc
      simp only
      split
      · exact { hacc with }
      · exact hacc
    · rw [if_neg hread]
      exact .refl s
  · rw [if_neg hfd] at h ⊢
    rw [h]
    exact .refl s

/-- A turn for the client at `pos`: it is closed, or left as the handling left it with the
interest that was registered. No other client is touched. -/
structure Turned (s : Server) (handling : Handling) (pos : Fin serverMaxClients) (s' : Server) :
    Prop where
  closed : handling.closes = true → (s'.clients pos).used = false
  client : handling.closes = false → s'.clients pos = handling.client
  io : handling.closes = false →
    s'.io (s.clients pos).fd = handling.interest.or (s.io (s.clients pos).fd)
  other : ∀ i, i ≠ pos → s'.clients i = s.clients i
  other_io : ∀ fd, fd ≠ (s.clients pos).fd → s'.io fd = s.io fd

theorem turn_turned (h : s.target t = some pos) :
    Turned s (s.handling t pos) pos (s.turn t) := by
  have hused := target_eq_some h
  obtain ⟨-, -, -, -, hfd', hused'⟩ :=
    handleClient_spec (s.clients pos) t.event t.reads t.writes
  change (s.handling t pos).client.fd = _ at hfd'
  change (s.handling t pos).client.used = _ at hused'
  unfold target at h
  unfold turn
  by_cases hfd : t.event.fd = s.listenerFd
  · rw [if_pos hfd] at h
    cases h
  · rw [if_neg hfd] at h
    rw [if_neg hfd, h]
    simp only
    generalize s.handling t pos = handling at hfd' hused' ⊢
    have hother : ∀ i, i ≠ pos → (s.setClient pos handling.client).clients i = s.clients i :=
      fun i hi => setClient_ne s hi _
    -- the client is closed, or its interest is set, or nothing more is done
    by_cases hcloses : handling.closes = true
    · rw [if_pos hcloses, closeClient, setClient_self, if_pos (hused'.trans hused)]
      refine ⟨fun _ => by rw [setClient_self], fun hno => ?_, fun hno => ?_, fun i hi => ?_, ?_⟩
      · rw [hcloses] at hno
        cases hno
      · rw [hcloses] at hno
        cases hno
      · rw [setClient_ne _ hi]
        exact hother i hi
      · intro fd hne
        show Function.update s.io handling.client.fd none fd = s.io fd
        rw [hfd', Function.update_of_ne hne]
    · rw [if_neg hcloses]
      rcases hint : handling.interest with _ | wantWrite
      · refine ⟨fun h => absurd h hcloses, fun _ => setClient_self _ _ _, fun _ => ?_, hother,
          fun _ _ => rfl⟩
        rw [hint, Option.none_or]
        rfl
      · refine ⟨fun h => absurd h hcloses, fun _ => setClient_self _ _ _, fun _ => ?_, hother, ?_⟩
        · show Function.update s.io handling.client.fd (some wantWrite) (s.clients pos).fd = _
          rw [hfd', Function.update_self, hint, Option.some_or]
        · intro fd hne
          show Function.update s.io handling.client.fd (some wantWrite) fd = s.io fd
          rw [hfd', Function.update_of_ne hne]

end Server

/-! ## All turns -/

namespace Watch

variable {w : Watch} {t : Turn}

/-- The clients in use have different file descriptors, and nothing is remembered of the sockets
of slots that are not in use. -/
structure Tidy (w : Watch) : Prop where
  distinct : w.server.Distinct
  writeFailed : ∀ i, (w.server.clients i).used = false → w.writeFailed i = false
  feedFailed : ∀ i, (w.server.clients i).used = false → w.feedFailed i = false

theorem start_tidy (listenerFd : Int) : Tidy (start listenerFd) where
  distinct i j hi := by cases hi
  writeFailed _ _ := rfl
  feedFailed _ _ := rfl

/-- A turn that is for no client. -/
theorem turn_none (h : w.server.target t = none) :
    w.turn t = { w with server := w.server.turn t } := by
  rw [turn, h]

@[simp] theorem turn_server (w : Watch) (t : Turn) : (w.turn t).server = w.server.turn t := by
  unfold turn
  split <;> rfl

theorem turn_tidy (hw : Tidy w) (hopen : w.server.AcceptsUnopened t.accepts.outcomes) :
    Tidy (w.turn t) := by
  rcases htarget : w.server.target t with _ | pos
  · have hacc := Server.turn_accepted htarget hopen
    rw [turn_none htarget]
    -- a slot that is free after accepting was free before
    have hfree : ∀ i, ((w.server.turn t).clients i).used = false →
        (w.server.clients i).used = false := by
      intro i hi
      rcases hacc.slot i with heq | ⟨hold, -⟩
      · rwa [heq] at hi
      · exact hold
    exact ⟨hacc.distinct hw.distinct, fun i hi => hw.writeFailed i (hfree i hi),
      fun i hi => hw.feedFailed i (hfree i hi)⟩
  · have hturned := Server.turn_turned htarget
    have hused := Server.target_eq_some htarget
    obtain ⟨-, -, -, -, hfd', hused'⟩ :=
      handleClient_spec (w.server.clients pos) t.event t.reads t.writes
    rw [turn, htarget]
    refine ⟨?_, fun i hi => ?_, fun i hi => ?_⟩
    · -- a client that is in use after the turn was in use before, with the same descriptor
      have hold : ∀ i, ((w.server.turn t).clients i).used = true →
          (w.server.clients i).used = true
            ∧ ((w.server.turn t).clients i).fd = (w.server.clients i).fd := by
        intro i hi
        by_cases hpos : i = pos
        · subst hpos
          by_cases hcloses : (w.server.handling t i).closes = true
          · rw [hturned.closed hcloses] at hi
            cases hi
          · rw [hturned.client (by simpa using hcloses)]
            exact ⟨hused, hfd'⟩
        · rw [hturned.other i hpos] at hi ⊢
          exact ⟨hi, rfl⟩
      intro i j hi hj hij
      obtain ⟨hi', hfdi⟩ := hold i hi
      obtain ⟨hj', hfdj⟩ := hold j hj
      exact hw.distinct i j hi' hj' (by rwa [hfdi, hfdj] at hij)
    all_goals
      simp only at hi ⊢
      by_cases hpos : i = pos
      · subst hpos
        rw [Function.update_self]
        by_cases hcloses : (w.server.handling t i).closes = true
        · rw [hcloses]
          rfl
        · rw [hturned.client (by simpa using hcloses)] at hi
          exact absurd (hused'.trans hused) (by simpa [Server.handling] using hi)
      · rw [Function.update_of_ne hpos]
        rw [hturned.other i hpos] at hi
        first
        | exact hw.writeFailed i hi
        | exact hw.feedFailed i hi

end Watch

/-- **The induction rule for runs of the server**: what holds at the start and is kept by every
turn that meets the condition holds whenever the server comes to wait. -/
theorem served_invariant {listenerFd : Int} {maxConnections : Nat} {cond : Watch → Turn → Prop}
    {P : Watch → Prop} (h0 : P (Watch.start listenerFd))
    (hstep : ∀ {w t}, w.Tidy → w.server.AcceptsUnopened t.accepts.outcomes → cond w t → P w →
      P (w.turn t)) {w : Watch} (h : Served listenerFd maxConnections cond w) : w.Tidy ∧ P w := by
  induction h with
  | start => exact ⟨Watch.start_tidy _, h0⟩
  | @wait w ts _ _ _ hts ih =>
      clear * - hstep hts ih
      induction ts generalizing w with
      | nil => exact ih
      | cons t ts iht =>
          obtain ⟨hopen, hcond, hrest⟩ := hts
          exact iht hrest ⟨Watch.turn_tidy ih.1 hopen, hstep ih.1 hopen hcond ih.2⟩

end C11Omo.Http2
