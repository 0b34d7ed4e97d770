import C11Omo.Http2.ServerRuns

set_option autoImplicit false

/-! # Sockets that fail, stall or have to be closed

Three properties of the event loop, each with the exact condition on a turn under which it is
kept. A failed `write` never closes a client, since output is still pending after it. A client
whose read side is at its end is not registered for writing while output is pending. A client
whose `feed` has failed is closed only if the turn that drains its output also ends its read side.
-/

namespace C11Omo.Http2

open C11Omo.Lib

namespace Watch

variable {w : Watch} {t : Turn} {pos : Fin serverMaxClients}

/-- The output of a client that a turn has to flush. -/
def pendingFor (w : Watch) (t : Turn) (pos : Fin serverMaxClients) : List UInt8 :=
  pendingOutput (w.server.clients pos) t.event t.reads

/-- The read side of a client is at its end in a turn. -/
def EndsReading (w : Watch) (t : Turn) (pos : Fin serverMaxClients) : Prop :=
  ReadEnds (w.server.clients pos) t.event t.reads

instance : Decidable (w.EndsReading t pos) := inferInstanceAs (Decidable (ReadEnds ..))

/-- The client after the handling still has output. -/
theorem handling_wantsWrite (w : Watch) (t : Turn) (pos : Fin serverMaxClients) :
    (w.server.handling t pos).client.conn.wantsWrite = true
      ↔ t.writes.taken < (w.pendingFor t pos).length := by
  have hspec := (handleClient_spec (w.server.clients pos) t.event t.reads t.writes).1
  rw [← Bool.not_eq_false, Connection.wantsWrite_eq_false]
  show ¬ (handleClient (w.server.clients pos) t.event t.reads t.writes).client.conn.pending = [] ↔ _
  rw [hspec, List.drop_eq_nil_iff]
  exact not_le

theorem handling_closes (w : Watch) (t : Turn) (pos : Fin serverMaxClients) :
    (w.server.handling t pos).closes = true
      ↔ w.EndsReading t pos ∧ (w.pendingFor t pos).length ≤ t.writes.taken :=
  (handleClient_spec (w.server.clients pos) t.event t.reads t.writes).2.2.1

/-- A property of all clients in use, in the state after a turn for one of them: the other clients
have it as before, and that one has it unless it is closed. -/
theorem forall_turn {P : Watch → Fin serverMaxClients → Prop}
    (htarget : w.server.target t = some pos)
    (hold : ∀ i, (w.server.clients i).used = true → P w i)
    (hother : ∀ i, i ≠ pos → (w.server.clients i).used = true → P w i → P (w.turn t) i) :
    (∀ i, ((w.turn t).server.clients i).used = true → P (w.turn t) i)
      ↔ ((w.server.handling t pos).closes = false → P (w.turn t) pos) := by
  have hturned := Server.turn_turned htarget
  have hused : (w.server.handling t pos).client.used = true :=
    (handleClient_spec (w.server.clients pos) t.event t.reads t.writes).2.2.2.2.2.trans
      (Server.target_eq_some htarget)
  constructor
  · intro h hopen
    apply h
    rw [turn_server, hturned.client hopen]
    exact hused
  · intro h i hi
    rw [turn_server] at hi
    by_cases hpos : i = pos
    · subst hpos
      apply h
      by_contra hcloses
      rw [hturned.closed (by simpa using hcloses)] at hi
      cases hi
    · rw [hturned.other i hpos] at hi
      exact hother i hpos hi (hold i hi)

/-- The same for a turn that is for no client: the clients in use are those of before, and fresh
ones. -/
theorem forall_turn_none {P : Watch → Fin serverMaxClients → Prop}
    (htarget : w.server.target t = none) (hopen : w.server.AcceptsUnopened t.accepts.outcomes)
    (hold : ∀ i, (w.server.clients i).used = true → P w i)
    (hkept : ∀ i, (w.server.clients i).used = true → P w i →
      (w.server.turn t).clients i = w.server.clients i →
      (w.server.turn t).io (w.server.clients i).fd = w.server.io (w.server.clients i).fd →
      P (w.turn t) i)
    (hnew : ∀ i, (w.server.clients i).used = false →
      ((w.server.turn t).clients i).conn = Connection.init → P (w.turn t) i) :
    ∀ i, ((w.turn t).server.clients i).used = true → P (w.turn t) i := by
  have hacc := Server.turn_accepted htarget hopen
  intro i hi
  rw [turn_server] at hi
  rcases hused : (w.server.clients i).used
  · refine hnew i hused ?_
    rcases hacc.slot i with heq | ⟨-, hfresh⟩
    · rw [heq, hused] at hi
      cases hi
    · exact hfresh hi
  · exact hkept i hused (hold i hused) (hacc.kept hused) (hacc.io i hused)

/-! ## Dead sockets -/

/-- No client in use has a socket on which a `write` has failed. -/
def NoDeadSocket (w : Watch) : Prop :=
  ∀ i, (w.server.clients i).used = true → w.writeFailed i = false

/-- In this turn no `write` fails hard while output is pending. -/
def WritesWork (w : Watch) (t : Turn) : Prop :=
  ∀ pos, w.server.target t = some pos → ¬ t.writes.FailsOn (w.pendingFor t pos)

/-- **A turn leaves no dead socket behind exactly if no `write` fails in it.** -/
theorem noDeadSocket_turn (hw : w.Tidy) (hopen : w.server.AcceptsUnopened t.accepts.outcomes)
    (h : w.NoDeadSocket) : (w.turn t).NoDeadSocket ↔ w.WritesWork t := by
  rcases htarget : w.server.target t with _ | pos
  · refine iff_of_true ?_ (by simp [WritesWork, htarget])
    refine forall_turn_none (P := fun w i => w.writeFailed i = false) htarget hopen h ?_ ?_
    · intro i hi hP _ _
      rw [turn_none htarget]
      exact hP
    · intro i hi _
      rw [turn_none htarget]
      exact hw.writeFailed i hi
  · have hflushed := (handleClient_spec (w.server.clients pos) t.event t.reads t.writes).2.1
    have hself : (w.turn t).writeFailed pos = (!(w.server.handling t pos).closes
        && (w.writeFailed pos || (w.server.handling t pos).flushed ≠ 0)) := by
      rw [turn, htarget]
      exact Function.update_self ..
    have hold := h pos (Server.target_eq_some htarget)
    refine (forall_turn (P := fun w i => w.writeFailed i = false) htarget h ?_).trans ?_
    · intro i hpos _ hP
      rw [turn, htarget]
      exact (Function.update_of_ne hpos ..).trans hP
    · rw [hself, hold, WritesWork, htarget]
      simp only [Option.some.injEq, forall_eq']
      constructor
      · intro himp hfails
        -- the client stays, because the output is not drained
        have hcloses : (w.server.handling t pos).closes = false := by
          rw [← Bool.not_eq_true, handling_closes]
          exact fun hdone => hfails.not_drained hdone.2
        have hzero : decide ((w.server.handling t pos).flushed ≠ 0) = true :=
          decide_eq_true (hflushed.mpr hfails)
        rw [hcloses, hzero] at himp
        exact absurd (himp rfl) (by decide)
      · intro hworks hcloses
        have hzero : decide ((w.server.handling t pos).flushed ≠ 0) = false :=
          decide_eq_false (mt hflushed.mp hworks)
        rw [hcloses, hzero]
        rfl

/-! ## Interest in writing -/

/-- Every client in use with output pending was last registered with interest in writing. -/
def PendingRegistered (w : Watch) : Prop :=
  ∀ i, (w.server.clients i).used = true → (w.server.clients i).conn.wantsWrite = true →
    w.server.io (w.server.clients i).fd = some true

/-- If output stays pending in this turn, then the read side is not at its end and no `write`
fails, or the client is registered for writing already. -/
def KeepsInterest (w : Watch) (t : Turn) : Prop :=
  ∀ pos, w.server.target t = some pos → t.writes.taken < (w.pendingFor t pos).length →
    (¬ w.EndsReading t pos ∧ ¬ t.writes.FailsOn (w.pendingFor t pos))
      ∨ w.server.io (w.server.clients pos).fd = some true

/-- **A turn leaves all pending output registered exactly if it keeps the interest.** -/
theorem pendingRegistered_turn (hw : w.Tidy) (hopen : w.server.AcceptsUnopened t.accepts.outcomes)
    (h : w.PendingRegistered) : (w.turn t).PendingRegistered ↔ w.KeepsInterest t := by
  rcases htarget : w.server.target t with _ | pos
  · -- no client is handled: old clients are as before, and new ones have no output
    refine iff_of_true ?_ (by simp [KeepsInterest, htarget])
    refine forall_turn_none (P := fun w i => (w.server.clients i).conn.wantsWrite = true →
      w.server.io (w.server.clients i).fd = some true) htarget hopen h ?_ ?_
    · intro i hi hP hclient hio
      rw [turn_server, hclient, hio]
      exact hP
    · intro i hi hfresh hwants
      rw [turn_server, hfresh] at hwants
      cases hwants
  · have hturned := Server.turn_turned htarget
    have hused := Server.target_eq_some htarget
    obtain ⟨-, -, -, hinterest, hfd, -⟩ :=
      handleClient_spec (w.server.clients pos) t.event t.reads t.writes
    refine (forall_turn (P := fun w i => (w.server.clients i).conn.wantsWrite = true →
      w.server.io (w.server.clients i).fd = some true) htarget h ?_).trans ?_
    · -- the other clients keep their registrations, since descriptors are distinct
      intro i hpos hi hP
      have hne : (w.server.clients i).fd ≠ (w.server.clients pos).fd :=
        fun hfd => hpos (hw.distinct i pos hi hused hfd)
      rw [turn_server, hturned.other i hpos, hturned.other_io _ hne]
      exact hP
    · rw [KeepsInterest, htarget]
      simp only [Option.some.injEq, forall_eq']
      have hio : (w.server.handling t pos).closes = false →
          (((w.turn t).server.clients pos).conn.wantsWrite = true
            ↔ t.writes.taken < (w.pendingFor t pos).length)
          ∧ (w.turn t).server.io ((w.turn t).server.clients pos).fd
            = (w.server.handling t pos).interest.or (w.server.io (w.server.clients pos).fd) := by
        intro hcloses
        rw [turn_server, hturned.client hcloses]
        refine ⟨handling_wantsWrite w t pos, ?_⟩
        rw [← hturned.io hcloses]
        exact congrArg _ hfd
      -- with output left the client is not closed
      have hopened : t.writes.taken < (w.pendingFor t pos).length →
          (w.server.handling t pos).closes = false := by
        intro hlt
        rw [← Bool.not_eq_true, handling_closes]
        exact fun hdone => not_lt.mpr hdone.2 hlt
      -- and asks for writing unless reading or writing has ended
      have hor : t.writes.taken < (w.pendingFor t pos).length →
          ((w.server.handling t pos).interest.or (w.server.io (w.server.clients pos).fd) = some true
            ↔ (¬ w.EndsReading t pos ∧ ¬ t.writes.FailsOn (w.pendingFor t pos))
              ∨ w.server.io (w.server.clients pos).fd = some true) := by
        intro hlt
        have hint : (w.server.handling t pos).interest
            = if w.EndsReading t pos ∨ t.writes.FailsOn (w.pendingFor t pos) then none
              else some (decide (t.writes.taken < (w.pendingFor t pos).length)) := hinterest
        rw [hint, decide_eq_true hlt, ← not_or]
        by_cases hbad : w.EndsReading t pos ∨ t.writes.FailsOn (w.pendingFor t pos)
        · rw [if_pos hbad, Option.none_or]
          exact ⟨Or.inr, fun h => h.resolve_left (not_not.mpr hbad)⟩
        · rw [if_neg hbad, Option.some_or]
          exact iff_of_true rfl (Or.inl hbad)
      constructor
      · intro himp hlt
        obtain ⟨hwants, hreg⟩ := hio (hopened hlt)
        have hdone := himp (hopened hlt) (hwants.mpr hlt)
        rw [hreg] at hdone
        exact (hor hlt).mp hdone
      · intro hkeeps hcloses hwrite
        obtain ⟨hwants, hreg⟩ := hio hcloses
        have hlt := hwants.mp hwrite
        rw [hreg]
        exact (hor hlt).mpr (hkeeps hlt)

/-! ## Failed connections -/

end Watch

/-- The socket delivers no bytes after a `feed` has failed, as long as the client is read:
a failure without output to flush ends the reading. -/
def QuietAfter : (failed : Bool) → Connection → List ReadOutcome → Prop
  | _, _, [] => True
  | failed, conn, .interrupted :: rest => QuietAfter failed conn rest
  | failed, conn, .got chunk :: rest =>
      failed = false ∧
        ((conn.feed chunk.bytes).1 ≠ .ok ∧ (conn.feed chunk.bytes).2.wantsWrite = false
          ∨ QuietAfter ((conn.feed chunk.bytes).1 ≠ .ok) (conn.feed chunk.bytes).2 rest)

/-- Nothing is fed after a failure exactly if the socket is quiet after it. -/
theorem lateFeed_readClient (failed : Bool) (client : Client) (outcomes : List ReadOutcome)
    (last : ReadEnd) :
    lateFeed failed ((readClient client outcomes last).fed.map Prod.snd) = false
      ↔ QuietAfter failed client.conn outcomes := by
  induction outcomes generalizing failed client with
  | nil => cases last <;> simp [readClient, lateFeed, QuietAfter]
  | cons outcome rest ih =>
      cases outcome with
      | interrupted => exact ih failed client
      | got chunk =>
          rw [readClient, QuietAfter]
          rcases client.conn.feed chunk.bytes with ⟨code, conn⟩
          simp only
          by_cases hstop : code ≠ .ok ∧ conn.wantsWrite = false
          · rw [if_pos hstop]
            simp [lateFeed, hstop.1, hstop.2]
          · rw [if_neg hstop]
            have hrest := ih (code ≠ .ok) { client with conn }
            simp only [List.map_cons, lateFeed, Bool.or_eq_false_iff]
            rw [hrest]
            exact and_congr_right fun _ => (or_iff_right hstop).symm

namespace Watch

variable {w : Watch} {t : Turn} {pos : Fin serverMaxClients}

/-- No client was fed after a failure, and the clients in use for which a `feed` has failed still
have output pending. -/
def FailedClosing (w : Watch) : Prop :=
  w.fedLate = false ∧ ∀ i, (w.server.clients i).used = true → w.feedFailed i = true →
    (w.server.clients i).conn.wantsWrite = true

/-- A `feed` has failed for the client, in this turn or before. -/
def FailsBy (w : Watch) (t : Turn) (pos : Fin serverMaxClients) : Prop :=
  w.feedFailed pos = true ∨ ∃ call ∈ (w.server.handling t pos).fed, call.2 ≠ .ok

/-- In this turn a client whose `feed` fails, or has failed, gets no more bytes, and if its output
is drained its read side is at its end. -/
def ClosesFailed (w : Watch) (t : Turn) : Prop :=
  ∀ pos, w.server.target t = some pos →
    (t.event.readable = true →
      QuietAfter (w.feedFailed pos) (w.server.clients pos).conn t.reads.outcomes)
    ∧ (w.FailsBy t pos → (w.pendingFor t pos).length ≤ t.writes.taken → w.EndsReading t pos)

theorem lateFeed_handling (w : Watch) (t : Turn) (pos : Fin serverMaxClients) :
    lateFeed (w.feedFailed pos) ((w.server.handling t pos).fed.map Prod.snd) = false
      ↔ (t.event.readable = true →
          QuietAfter (w.feedFailed pos) (w.server.clients pos).conn t.reads.outcomes) := by
  show lateFeed _ ((readEvent (w.server.clients pos) t.event t.reads).fed.map Prod.snd) = false ↔ _
  rw [readEvent]
  by_cases hread : t.event.readable = true
  · rw [if_pos hread, lateFeed_readClient]
    exact ⟨fun h _ => h, fun h => h hread⟩
  · rw [if_neg hread]
    exact iff_of_true rfl fun h => absurd h hread

/-- **A turn leaves failed clients on their way out exactly if it closes them in time.** -/
theorem failedClosing_turn (hw : w.Tidy) (hopen : w.server.AcceptsUnopened t.accepts.outcomes)
    (h : w.FailedClosing) : (w.turn t).FailedClosing ↔ w.ClosesFailed t := by
  obtain ⟨hlate, hfailed⟩ := h
  rcases htarget : w.server.target t with _ | pos
  · refine iff_of_true ⟨?_, ?_⟩ (by simp [ClosesFailed, htarget])
    · rw [turn_none htarget]
      exact hlate
    · refine forall_turn_none (P := fun w i => w.feedFailed i = true →
        (w.server.clients i).conn.wantsWrite = true) htarget hopen hfailed ?_ ?_
      · intro i hi hP hclient _ hfail
        rw [turn_none htarget] at hfail
        rw [turn_server, hclient]
        exact hP hfail
      · intro i hi _ hfail
        rw [turn_none htarget] at hfail
        rw [show w.feedFailed i = false from hw.feedFailed i hi] at hfail
        cases hfail
  · have hturned := Server.turn_turned htarget
    -- the mark of the client is set by a failing feed and taken away with the client
    have hnow : (w.turn t).feedFailed pos = (!(w.server.handling t pos).closes
        && (w.feedFailed pos
          || ((w.server.handling t pos).fed.map Prod.snd).any (· ≠ .ok))) := by
      rw [turn, htarget]
      exact Function.update_self ..
    have hfails : (w.feedFailed pos
        || ((w.server.handling t pos).fed.map Prod.snd).any (· ≠ .ok)) = true ↔ w.FailsBy t pos := by
      rw [Bool.or_eq_true, List.any_map, List.any_eq_true, FailsBy]
      simp
    have hfed : (w.turn t).fedLate = false
        ↔ lateFeed (w.feedFailed pos) ((w.server.handling t pos).fed.map Prod.snd) = false := by
      rw [turn, htarget]
      simp only [hlate, Bool.false_or]
    have hwaits : (∀ i, ((w.turn t).server.clients i).used = true → (w.turn t).feedFailed i = true →
          ((w.turn t).server.clients i).conn.wantsWrite = true)
        ↔ ((w.server.handling t pos).closes = false → w.FailsBy t pos →
            t.writes.taken < (w.pendingFor t pos).length) := by
      refine (forall_turn (P := fun w i => w.feedFailed i = true →
        (w.server.clients i).conn.wantsWrite = true) htarget hfailed ?_).trans ?_
      · intro i hpos hi hP hfail
        rw [turn, htarget] at hfail
        rw [turn_server, hturned.other i hpos]
        exact hP ((Function.update_of_ne hpos ..).symm.trans hfail)
      · refine forall_congr' fun hcloses => ?_
        rw [hnow, hcloses, turn_server, hturned.client hcloses, handling_wantsWrite]
        simp only [Bool.not_false, Bool.true_and, hfails]
    -- it is closed exactly when its output has drained and reading has ended
    have hends : ((w.server.handling t pos).closes = false → w.FailsBy t pos →
          t.writes.taken < (w.pendingFor t pos).length)
        ↔ (w.FailsBy t pos → (w.pendingFor t pos).length ≤ t.writes.taken →
            w.EndsReading t pos) := by
      rw [← Bool.not_eq_true, handling_closes]
      constructor
      · intro himp hfail hdrained
        by_contra hread
        exact not_lt.mpr hdrained (himp (fun hdone => hread hdone.1) hfail)
      · intro himp hcloses hfail
        by_contra hdrained
        exact hcloses ⟨himp hfail (not_lt.mp hdrained), not_lt.mp hdrained⟩
    rw [ClosesFailed, htarget]
    simp only [Option.some.injEq, forall_eq']
    exact and_congr (hfed.trans (lateFeed_handling w t pos)) (hwaits.trans hends)

end Watch

open Watch

/-! ## Results -/

/-- **A failed `write` never closes its client.** For every client and every event, a flush that
fails is followed by `h2_close_client` exactly if no `write` fails hard while output is pending,
that is if the flush does not fail. So a run has no dead socket in use as long as no turn has such
a `write`, and has one after every turn that does. -/
theorem dead_socket_kept (listenerFd : Int) (maxConnections : Nat) :
    (∀ (client : Client) (event : IoEvent) (reads : Reads) (writes : Writes),
      ((handleClient client event reads writes).flushed ≠ 0 →
          (handleClient client event reads writes).closes = true)
        ↔ ¬ writes.FailsOn (pendingOutput client event reads))
      ∧ (∀ w, Served listenerFd maxConnections WritesWork w → w.NoDeadSocket)
      ∧ ∀ cond w t, Served listenerFd maxConnections cond w → w.NoDeadSocket →
          w.server.AcceptsUnopened t.accepts.outcomes →
          ((w.turn t).NoDeadSocket ↔ w.WritesWork t) := by
  refine ⟨fun client event reads writes => ?_, ?_, ?_⟩
  · obtain ⟨-, hflushed, hcloses, -⟩ := handleClient_spec client event reads writes
    rw [hflushed, hcloses]
    constructor
    · intro himp hfails
      exact hfails.not_drained (himp hfails).2
    · exact fun hworks hfails => absurd hfails hworks
  · intro w hserved
    exact (served_invariant (P := NoDeadSocket) (fun i hi => by cases hi)
      (fun hw hopen hcond h => (noDeadSocket_turn hw hopen h).mpr hcond) hserved).2
  · intro cond w t hserved h hopen
    have htidy := (served_invariant (P := fun _ => True) trivial (fun _ _ _ _ => trivial) hserved).1
    exact noDeadSocket_turn htidy hopen h

/-- **Pending output is registered** in every run whose turns keep the interest, and no longer
after a turn that does not keep it. -/
theorem pending_output_registered (listenerFd : Int) (maxConnections : Nat) :
    (∀ w, Served listenerFd maxConnections KeepsInterest w → w.PendingRegistered)
      ∧ ∀ cond w t, Served listenerFd maxConnections cond w → w.PendingRegistered →
          w.server.AcceptsUnopened t.accepts.outcomes →
          ((w.turn t).PendingRegistered ↔ w.KeepsInterest t) := by
  constructor
  · intro w hserved
    exact (served_invariant (P := PendingRegistered) (fun i hi => by cases hi)
      (fun hw hopen hcond h => (pendingRegistered_turn hw hopen h).mpr hcond) hserved).2
  · intro cond w t hserved h hopen
    have htidy := (served_invariant (P := fun _ => True) trivial (fun _ _ _ _ => trivial) hserved).1
    exact pendingRegistered_turn htidy hopen h

/-- **A failed connection is closed** in every run whose turns close them in time, and not in time
after a turn that does not. -/
theorem failed_connection_closed (listenerFd : Int) (maxConnections : Nat) :
    (∀ w, Served listenerFd maxConnections ClosesFailed w → w.FailedClosing)
      ∧ ∀ cond w t, Served listenerFd maxConnections cond w → w.FailedClosing →
          w.server.AcceptsUnopened t.accepts.outcomes →
          ((w.turn t).FailedClosing ↔ w.ClosesFailed t) := by
  constructor
  · intro w hserved
    exact (served_invariant (P := FailedClosing) ⟨rfl, fun i hi => by cases hi⟩
      (fun hw hopen hcond h => (failedClosing_turn hw hopen h).mpr hcond) hserved).2
  · intro cond w t hserved h hopen
    have htidy := (served_invariant (P := fun _ => True) trivial (fun _ _ _ _ => trivial) hserved).1
    exact failedClosing_turn htidy hopen h

/-! ## Turns that go wrong -/

/-- A client connects with the descriptor 7. -/
def connectTurn : Turn where
  event := { fd := 3, readable := true, writable := false, closed := false }
  accepts := { outcomes := [.accepted 7 true true], last := .again }
  reads := { outcomes := [], last := .again }
  writes := { counts := [], last := .blocked }

/-- A wrong preface. -/
def wrongChunk : Chunk := ⟨List.replicate 24 0, by decide, by decide⟩

/-- The client sends `chunks`. -/
def clientTurn (chunks : List Chunk) (last : ReadEnd) (writes : Writes) : Turn where
  event := { fd := 7, readable := true, writable := false, closed := false }
  accepts := { outcomes := [], last := .again }
  reads := { outcomes := chunks.map .got, last }
  writes := writes

/-- A client has connected, and one more turn is for it. -/
def connected (t : Turn) : Watch := ((Watch.start 3).turns [connectTurn]).turns [t]

theorem connected_served {cond : Watch → Turn → Prop} {t : Turn} (hnone : t.accepts.outcomes = [])
    (hfirst : cond (Watch.start 3) connectTurn)
    (hsecond : cond ((Watch.start 3).turns [connectTurn]) t) : Served 3 0 cond (connected t) := by
  have hserved : Served 3 0 cond ((Watch.start 3).turns [connectTurn]) := by
    refine .wait [connectTurn] .start rfl (by decide) ⟨⟨⟨by decide, ?_⟩, trivial⟩, hfirst, trivial⟩
    intro pos hused
    cases hused
  refine .wait [t] hserved rfl (by simp) ⟨?_, hsecond, trivial⟩
  rw [hnone]
  trivial

/-- The new client has the first slot. -/
theorem connected_target {t : Turn} (hfd : t.event.fd = 7) {pos : Fin serverMaxClients}
    (h : ((Watch.start 3).turns [connectTurn]).server.target t = some pos) : pos = 0 := by
  have hfirst : ((Watch.start 3).turns [connectTurn]).server.target t = some 0 := by
    unfold Server.target
    rw [hfd]
    decide
  rw [h] at hfirst
  exact Option.some.inj hfirst

/-- The peer takes the first SETTINGS frame. -/
def quietTurn : Turn := clientTurn [prefaceChunk] .again { counts := [15], last := .blocked }

theorem dead_socket_kept_quiet : (connected quietTurn).NoDeadSocket :=
  (dead_socket_kept 3 0).2.1 _ (connected_served rfl (fun _ h => by cases h)
    fun _ _ hfails => by cases hfails.1)

/-- The socket takes seven bytes of the first SETTINGS frame. -/
def blockedTurn : Turn := clientTurn [prefaceChunk] .again { counts := [7], last := .blocked }

/-- The other eight bytes are pending, and the client is registered for writing. -/
theorem pending_output_registered_blocked : (connected blockedTurn).PendingRegistered
    ∧ ((connected blockedTurn).server.clients 0).conn.wantsWrite = true
    ∧ (connected blockedTurn).server.io 7 = some true := by
  refine ⟨(pending_output_registered 3 0).1 _ (connected_served rfl (fun _ h => by cases h) ?_),
    by decide, by decide⟩
  intro pos htarget _
  rw [connected_target rfl htarget]
  -- the read side stays open and no `write` fails
  exact Or.inl ⟨by decide, fun hfails => by cases hfails.1⟩

/-- The peer sends a wrong preface, and its socket takes five bytes of the GOAWAY. -/
def failTurn : Turn := clientTurn [wrongChunk] .again { counts := [5], last := .blocked }

/-- The peer closes its side and takes the rest of the GOAWAY. -/
def drainTurn : Turn := clientTurn [] .endOfFile { counts := [12], last := .blocked }

theorem failTurn_target {pos : Fin serverMaxClients}
    (h : (connected failTurn).server.target drainTurn = some pos) : pos = 0 := by
  have hfirst : (connected failTurn).server.target drainTurn = some 0 := by
    decide
  rw [h] at hfirst
  exact Option.some.inj hfirst

theorem failTurn_served : Served 3 0 ClosesFailed (connected failTurn) := by
  refine connected_served rfl (fun _ h => by cases h) ?_
  intro pos htarget
  rw [connected_target rfl htarget]
  refine ⟨fun _ => ⟨rfl, Or.inr trivial⟩, fun _ hdrained => ?_⟩
  -- twelve bytes of the GOAWAY stay behind, so the client need not be closed yet
  exact absurd hdrained (by decide)

/-- The client whose `feed` has failed waits until the GOAWAY is written, and then it is closed. -/
theorem failed_connection_closed_drained :
    ((connected failTurn).FailedClosing ∧ (connected failTurn).feedFailed 0 = true)
      ∧ ((connected failTurn).turns [drainTurn]).FailedClosing
      ∧ (((connected failTurn).turns [drainTurn]).server.clients 0).used = false := by
  refine ⟨⟨(failed_connection_closed 3 0).1 _ failTurn_served, by decide⟩,
    (failed_connection_closed 3 0).1 _
      (.wait [drainTurn] failTurn_served rfl (by decide) ⟨trivial, ?_, trivial⟩), by decide⟩
  intro pos htarget
  rw [failTurn_target htarget]
  -- the turn that drains the output reads the end of file
  exact ⟨fun _ => trivial, fun _ _ => by decide⟩

/-- The peer resets the connection while the first SETTINGS frame is still pending. -/
def resetTurn : Turn := clientTurn [prefaceChunk] .again { counts := [], last := .failed }

/-- The peer half closes the connection while its socket takes no output. -/
def halfCloseTurn : Turn := clientTurn [prefaceChunk] .endOfFile { counts := [], last := .blocked }

/-- The peer sends a wrong preface twice and takes the GOAWAY. -/
def wrongTurn : Turn := clientTurn [wrongChunk, wrongChunk] .again { counts := [17], last := .blocked }

theorem dead_socket_leaks :
    (∃ (client : Client) (event : IoEvent) (reads : Reads) (writes : Writes),
      (handleClient client event reads writes).flushed ≠ 0
        ∧ (handleClient client event reads writes).closes = false)
      ∧ ∃ w, Served 3 0 (fun _ _ => True) w ∧ ¬ w.NoDeadSocket := by
  constructor
  · exact ⟨{ fd := 7, used := true, conn := Connection.init }, resetTurn.event, resetTurn.reads,
      resetTurn.writes, by decide, by decide⟩
  · refine ⟨connected resetTurn, connected_served rfl trivial trivial, fun h => ?_⟩
    exact absurd (h 0 (by decide)) (by decide)

theorem half_close_stalls : ∃ w, Served 3 0 (fun _ _ => True) w ∧ ¬ w.PendingRegistered := by
  refine ⟨connected halfCloseTurn, connected_served rfl trivial trivial, fun h => ?_⟩
  exact absurd (h 0 (by decide) (by decide)) (by decide)

theorem failed_connection_stays : ∃ w, Served 3 0 (fun _ _ => True) w ∧ w.fedLate = true
    ∧ ∃ i, (w.server.clients i).used = true ∧ w.feedFailed i = true
      ∧ (w.server.clients i).conn.wantsWrite = false :=
  ⟨connected wrongTurn, connected_served rfl trivial trivial, by decide, 0, by decide, by decide, by decide⟩

end C11Omo.Http2
