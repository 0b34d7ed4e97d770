import C11Omo.Http2.HeaderPaths
import C11Omo.Http2.StrictConnection
import C11Omo.Lib.Credit

set_option autoImplicit false

/-! # What the server owes

An amortised account of the output of a connection. Its load (`load`) is the pending output
together with what is already owed: the DATA frames of the responses that were put off, and the
path that an open header block will be answered with. `Spends` says that a handler finds the room
for all it queues and adds no more than a given number of bytes to the load; with that, putting a
response off costs as much as sending it, and flushing the responses costs nothing
(`flushDeferredLoop_spends`).
-/

namespace C11Omo.Http2

open C11Omo.Lib Connection

/-! ## Paths

The longest path in the static table has eleven bytes, and a literal path is no longer than its
literal. -/

theorem staticPath_length {index : Nat} {entry : StaticEntry} (h : staticGet index = some entry)
    (hname : cstr entry.name = ascii ":path") : entry.value.length ≤ 11 := by
  have hall : ∀ e ∈ staticTable, cstr e.name = ascii ":path" → e.value.length ≤ 11 := by decide
  unfold staticGet at h
  split_ifs at h
  exact hall entry (List.mem_of_getElem? h) hname

theorem copyText_length_le {cap : Nat} {src text : List UInt8} (h : copyText cap src = .ok text) :
    text.length ≤ src.length := by
  rw [copyText_ok h]
  exact cstr_length_le src

theorem decodeString_length_le {wire value : List UInt8} {cap used : Nat}
    (h : decodeString wire cap = .ok (value, used)) : value.length ≤ wire.length := by
  unfold decodeString at h
  split_ifs at h
  rcases hint : decodeInteger wire 7 with ret | ⟨valueLen, prefixLen⟩
  · simp only [hint] at h
    cases h
  · simp only [hint] at h
    split_ifs at h
    obtain ⟨rfl, -⟩ := Prod.mk.inj (Except.ok.inj h)
    rw [List.length_take, List.length_drop]
    omega

theorem maybeCopyPath_length_le {index : Nat} {entry : StaticEntry}
    (h : staticGet index = some entry) (path : List UInt8) (cap : Nat) :
    (maybeCopyPath entry.name entry.value path cap).2.length ≤ max path.length 11 := by
  unfold maybeCopyPath
  split
  · next hname =>
      have hlen := staticPath_length h hname
      rcases hcopy : copyText cap entry.value with ret | p
      · exact le_max_left _ _
      · have hp := copyText_length_le hcopy
        simp only
        omega
  · exact le_max_left _ _

theorem extractPathValue_length_le (name wire path : List UInt8) (cap : Nat) :
    (extractPathValue name wire path cap).2.1.length ≤ max path.length wire.length := by
  unfold extractPathValue
  split
  · rcases hstr : decodeString wire headerValueCap with ret | ⟨value, used⟩
    · exact le_max_left _ _
    · have hval := decodeString_length_le hstr
      rcases hcopy : copyText cap value with ret | p
      · simp only [hcopy]
        exact le_max_left _ _
      · have hp := copyText_length_le hcopy
        simp only [hcopy]
        omega
  · rcases skipStringCapped wire headerValueCap with ret | used
    · exact le_max_left _ _
    · exact le_max_left _ _

theorem extractPathLoop_length_le (cap fuel : Nat) (wire path : List UInt8) :
    (extractPathLoop fuel wire path cap).2.length ≤ max path.length (11 * wire.length) := by
  induction fuel generalizing wire path with
  | zero => exact le_max_left _ _
  | succ fuel ih =>
      cases wire with
      | nil => exact le_max_left _ _
      | cons first rest =>
          -- what is left of the block is shorter, and one byte is left of it at least
          have hrest : ∀ (used : Nat) (p : List UInt8),
              p.length ≤ max path.length (11 * (first :: rest).length) →
              (extractPathLoop fuel ((first :: rest).drop used) p cap).2.length
                ≤ max path.length (11 * (first :: rest).length) := by
            intro used p hp
            have hle := ih ((first :: rest).drop used) p
            rw [List.length_drop] at hle
            omega
          have hlen : 11 ≤ 11 * (first :: rest).length := by
            rw [List.length_cons]
            omega
          rw [extractPathLoop]
          split
          · rcases decodeInteger (first :: rest) 7 with ret | ⟨index, used⟩
            · exact le_max_left _ _
            · simp only
              rcases hget : staticGet index with _ | entry
              · exact le_max_left _ _
              · have hcopy := maybeCopyPath_length_le hget path cap
                simp only
                rcases hres : maybeCopyPath entry.name entry.value path cap with ⟨ret, p⟩
                rw [hres] at hcopy
                have hp : p.length ≤ max path.length (11 * (first :: rest).length) :=
                  hcopy.trans (max_le_max le_rfl hlen)
                cases ret <;> first | exact hrest used p hp | exact hp
          · split
            · rcases decodeInteger (first :: rest) 5 with ret | ⟨size, used⟩
              · exact le_max_left _ _
              · exact hrest used path (le_max_left _ _)
            · rcases decodeIndexedLiteralName (first :: rest) (literalPrefixBits first) headerNameCap
                with ret | ⟨name, nameUsed⟩
              · exact le_max_left _ _
              · have hval := extractPathValue_length_le name ((first :: rest).drop nameUsed) path cap
                simp only
                rcases hres : extractPathValue name ((first :: rest).drop nameUsed) path cap
                  with ⟨ret, p, used⟩
                rw [hres, List.length_drop] at hval
                have hp : p.length ≤ max path.length (11 * (first :: rest).length) := by
                  simp only at hval
                  omega
                cases ret <;> first | exact hrest _ p hp | exact hp

/-- **A path is at most eleven times as long as the header block it comes from.** -/
theorem extractPath_length_le (block : List UInt8) :
    (extractPath block streamPathCap).2.length ≤ min 255 (11 * block.length) := by
  have htext := (extractPath_pathText block).1
  have hloop := extractPathLoop_length_le streamPathCap block.length block []
  have hpath : (extractPath block streamPathCap).2
      = (extractPathLoop block.length block [] streamPathCap).2 := by
    rw [extractPath, if_neg (by decide)]
    rcases extractPathLoop block.length block [] streamPathCap with ⟨ret, p⟩
    cases ret <;> first | rfl | (simp only; split <;> rfl)
  rw [List.length_nil, ← hpath] at hloop
  simp only [streamPathCap] at htext
  simp only [streamPathCap] at hloop ⊢
  omega

/-! ## The load -/

namespace Connection

/-- The DATA frame that a stream is owed when its response was put off. -/
def owed (stream : Stream) : Nat :=
  if stream.responseBodyDeferred then frameHeaderLen + (responseBody stream.path).length else 0

/-- The longest path that the fragments of an open header block can have brought so far. -/
def blockLoad (conn : Connection) : Nat :=
  if conn.headerBlockOpen then min 255 (11 * conn.headerBlock.length) else 0

/-- The pending output and what is owed. -/
def load (conn : Connection) : Nat :=
  conn.pending.length + ∑ pos, owed (conn.streams pos) + conn.blockLoad

/-- `tried` succeeds in full if `cost` bytes of the output are free beside the load of `c`, and
adds no more to it. -/
def Spends (c : Connection) (cost : Nat) (tried : Option (ErrorCode × Connection))
    (r : ErrorCode × Connection) : Prop :=
  Affords connOutputCap (fun r => load r.2) (load c) cost tried r

variable {c : Connection} {pos : Fin connMaxStreams} {cost : Nat}

theorem load_congr {c' : Connection} (hpend : c'.pending = c.pending)
    (hstreams : c'.streams = c.streams) (hblock : c'.blockLoad = c.blockLoad) :
    load c' = load c := by
  unfold load
  rw [hpend, hstreams, hblock]

theorem load_setStream (c : Connection) (pos : Fin connMaxStreams) (s : Stream) :
    load (c.setStream pos s) + owed (c.streams pos) = load c + owed s := by
  have hold := Finset.add_sum_erase Finset.univ (fun i => owed (c.streams i)) (Finset.mem_univ pos)
  have hnew := Finset.add_sum_erase Finset.univ (fun i => owed ((c.setStream pos s).streams i))
    (Finset.mem_univ pos)
  have hrest : ∑ i ∈ Finset.univ.erase pos, owed ((c.setStream pos s).streams i)
      = ∑ i ∈ Finset.univ.erase pos, owed (c.streams i) := by
    refine Finset.sum_congr rfl fun i hi => ?_
    rw [setStream_streams_ne c (Finset.ne_of_mem_erase hi)]
  simp only [setStream_streams_self] at hnew
  have hpend : (c.setStream pos s).pending = c.pending := rfl
  have hblock : (c.setStream pos s).blockLoad = c.blockLoad := rfl
  unfold load
  rw [hpend, hblock]
  omega

/-- A slot that is owed no more than before. -/
theorem load_setStream_le {s : Stream} (h : owed s ≤ owed (c.streams pos)) :
    load (c.setStream pos s) ≤ load c := by
  have hset := load_setStream c pos s
  omega

theorem owed_le_load (c : Connection) (pos : Fin connMaxStreams) :
    c.pending.length + owed (c.streams pos) ≤ load c := by
  have hsum := Finset.single_le_sum (f := fun i => owed (c.streams i)) (fun i _ => Nat.zero_le _)
    (Finset.mem_univ pos)
  unfold load
  omega

theorem owed_le {s : Stream} (h : SlotOk s) : owed s ≤ 265 := by
  have hpath := h.path_length
  unfold owed
  split
  · rw [responseBody_length, frameHeaderLen]
    omega
  · exact Nat.zero_le _

theorem blockLoad_le (c : Connection) : c.blockLoad ≤ 255 := by
  unfold blockLoad
  split
  · exact min_le_left _ _
  · exact Nat.zero_le _

/-- **What can be owed before a chunk arrives**: a response in every slot, and a path. -/
theorem load_le (hc : Inv c) (hout : c.pending = []) : load c ≤ 34175 := by
  have hsum : ∑ pos, owed (c.streams pos) ≤ 128 * 265 := by
    refine (Finset.sum_le_card_nsmul Finset.univ _ 265 fun i _ => owed_le (hc.slot i)).trans ?_
    rw [Finset.card_univ, Fintype.card_fin, smul_eq_mul]
  have hblock := blockLoad_le c
  unfold load
  rw [hout, List.length_nil]
  omega

namespace Spends

variable {tried : Option (ErrorCode × Connection)} {r : ErrorCode × Connection}
  {next' : Connection → Option (ErrorCode × Connection)}

theorem pay {c' : Connection} (h : load c' ≤ load c + cost) (ret : ErrorCode) :
    Spends c cost (some (ret, c')) (ret, c') := Affords.pure h

/-- A step that queues nothing. -/
theorem skip {c' : Connection} (h : load c' ≤ load c) (ret : ErrorCode) :
    Spends c cost (some (ret, c')) (ret, c') := pay (h.trans (Nat.le_add_right _ _)) ret

/-- A change of the state before a handler. -/
theorem after {c' : Connection} (h : Spends c' cost tried r) (hle : load c' ≤ load c) :
    Spends c cost tried r := Affords.weaken h (by omega)

theorem mono {cost' : Nat} (h : Spends c cost tried r) (hle : cost ≤ cost') : Spends c cost' tried r :=
  Affords.weaken h (by omega)

theorem andThen {next : Connection → ErrorCode × Connection} (h : Spends c cost tried r)
    (cost' : Nat) (hnext : r.1 = .ok → Spends r.2 cost' (next' r.2) (next r.2)) :
    Spends c (cost + cost') (Checked.andThen tried next') (Connection.andThen r next) := by
  obtain ⟨ret, c'⟩ := r
  by_cases hret : ret = .ok
  · subst hret
    exact Affords.bind h (hnext rfl)
  · rw [andThen_err hret]
    refine Affords.bind h ?_
    cases ret <;> first | exact absurd rfl hret | exact Affords.pure (Nat.le_add_right _ _)

/-- The return code of a handler is thrown away. -/
theorem discard (h : Spends c cost tried r) (ret : ErrorCode) :
    Spends c cost (tried.bind fun done => some (ret, done.2)) (ret, r.2) := by
  refine (Affords.bind h ?_ : Affords _ _ _ (cost + 0) _ _)
  exact skip le_rfl ret

theorem orInternal (next : Connection → ErrorCode × Connection) (cost' : Nat) :
    Spends c cost tried r → (r.1 = .ok → Spends r.2 cost' (next' r.2) (next r.2)) →
      Spends c (cost + cost') (Checked.orInternal tried next')
        (match r with
          | (.ok, conn) => next conn
          | (_, conn) => (.internalError, conn)) := by
  intro h hnext
  obtain ⟨ret, c'⟩ := r
  by_cases hret : ret = .ok
  · subst hret
    exact Affords.bind h (hnext rfl)
  · refine Affords.bind h ?_
    cases ret <;> first | exact absurd rfl hret | exact Affords.pure (Nat.le_add_right _ _)

end Spends

end Connection

/-! ## The producers

Each is handed a buffer, and the frame it encodes is no longer than that. -/

theorem encodeRaw_length {cap : Nat} {type : FrameType} {flags : UInt8} {streamId : Nat}
    {payload wire : List UInt8} (h : encodeRaw cap type flags streamId payload = some wire) :
    wire.length = frameHeaderLen + payload.length ∧ wire.length ≤ cap := by
  by_cases hbad : payload.length > maxFrameSizeLimit ∨ cap < frameHeaderLen + payload.length
  · rw [encodeRaw, if_pos hbad] at h
    cases h
  · obtain ⟨hlen, hcap⟩ := not_or.mp hbad
    rw [encodeRaw_eq_wire (not_lt.mp hlen) (not_lt.mp hcap)] at h
    obtain rfl := Option.some.inj h
    rw [Frame.wire_length, Frame.of_payload (not_lt.mp hlen)]
    exact ⟨rfl, not_lt.mp hcap⟩

theorem encodeWindowUpdate_length {cap streamId increment : Nat} {wire : List UInt8}
    (h : encodeWindowUpdate cap streamId increment = some wire) : wire.length ≤ cap := by
  unfold encodeWindowUpdate at h
  split_ifs at h
  exact (encodeRaw_length h).2

theorem encodeRstStream_length {cap streamId errorCode : Nat} {wire : List UInt8}
    (h : encodeRstStream cap streamId errorCode = some wire) : wire.length ≤ cap := by
  unfold encodeRstStream at h
  split_ifs at h
  exact (encodeRaw_length h).2

theorem encodeSettings_length {cap : Nat} {flags : UInt8} {settings : List Setting}
    {wire : List UInt8} (h : encodeSettings cap flags settings = some wire) :
    wire.length ≤ cap := by
  unfold encodeSettings at h
  split_ifs at h
  · exact (encodeRaw_length h).2
  · exact (encodeRaw_length h).2

theorem encodeGoaway_length {cap lastStreamId errorCode : Nat} {debugData wire : List UInt8}
    (h : encodeGoaway cap lastStreamId errorCode debugData = some wire) : wire.length ≤ cap := by
  unfold encodeGoaway at h
  simp only at h
  split_ifs at h
  exact (encodeRaw_length h).2

theorem encodeData_length {cap streamId : Nat} {flags : UInt8} {data wire : List UInt8}
    (h : encodeData cap streamId flags data = some wire) :
    wire.length = frameHeaderLen + data.length := by
  unfold encodeData at h
  split_ifs at h
  exact (encodeRaw_length h).1

theorem encodeHeaders_length {cap streamId : Nat} {flags : UInt8} {block wire : List UInt8}
    (h : encodeHeaders cap streamId flags block = some wire) :
    wire.length = frameHeaderLen + block.length := by
  unfold encodeHeaders at h
  split_ifs at h
  exact (encodeRaw_length h).1

namespace Connection

variable {c : Connection} {pos : Fin connMaxStreams} {cost : Nat}

/-- The connection with more bytes in its output. -/
def queued (c : Connection) (data : List UInt8) : Connection :=
  { c with output := c.pending ++ data, outputSent := 0 }

theorem load_queued (c : Connection) (data : List UInt8) :
    load (c.queued data) = load c + data.length := by
  show ((c.pending ++ data).drop 0).length + ∑ i, owed (c.streams i) + c.blockLoad = _
  rw [List.drop_zero, List.length_append, load]
  omega

/-- There is room for the bytes behind those that are pending. -/
theorem queueBytes_of_room {data : List UInt8} (h : c.pending.length + data.length ≤ connOutputCap) :
    c.queueBytes data = (.ok, c.queued data)
      ∧ Strict.queueBytes c data = some (.ok, c.queued data) := by
  have hfit : ¬ data.length > connOutputCap - c.pending.length := by omega
  have hqueued : c.queueBytes data = (.ok, c.queued data) := by
    rw [queueBytes_eq, if_neg hfit]
    rfl
  refine ⟨hqueued, ?_⟩
  rw [Strict.queueBytes, hqueued]

/-- **Queueing bytes costs their number.** -/
theorem queueBytes_spends (c : Connection) (data : List UInt8) :
    Spends c data.length (Strict.queueBytes c data) (c.queueBytes data) := by
  intro hroom
  have hheld := owed_le_load c 0
  obtain ⟨hqueued, hstrict⟩ := @queueBytes_of_room c data (by omega)
  rw [hqueued]
  exact ⟨hstrict, (load_queued c data).le⟩

theorem queueWire_spends (c : Connection) {wire : Option (List UInt8)}
    (hlen : ∀ bytes, wire = some bytes → bytes.length ≤ cost) :
    Spends c cost (Strict.queueWire c wire) (c.queueWire wire) := by
  cases wire with
  | none => exact .skip le_rfl _
  | some bytes => exact (queueBytes_spends c bytes).mono (hlen bytes rfl)

theorem queueGoaway_spends (c : Connection) (errorCode : ErrorCode) :
    Spends c 17 (Strict.queueGoaway c errorCode) (c.queueGoaway errorCode) := by
  unfold Strict.queueGoaway queueGoaway
  split
  · exact .skip le_rfl _
  · rcases hwire : encodeGoaway (frameHeaderLen + 8) c.lastStreamId errorCode.toNat [] with _ | wire
    · exact .skip le_rfl _
    · have hqueued := queueBytes_spends
        { c with goawaySent := true, goawayError := errorCode.toNat } wire
      exact (hqueued.mono (encodeGoaway_length hwire)).after le_rfl

theorem queueSettings_spends (c : Connection) :
    Spends c 15 (Strict.queueSettings c) c.queueSettings :=
  queueWire_spends c fun _ h => encodeSettings_length h

theorem queueSettingsAck_spends (c : Connection) :
    Spends c 9 (Strict.queueSettingsAck c) c.queueSettingsAck :=
  queueWire_spends c fun _ h => encodeSettings_length h

theorem queueWindowUpdate_spends (c : Connection) (streamId increment : Nat) :
    Spends c 13 (Strict.queueWindowUpdate c streamId increment)
      (c.queueWindowUpdate streamId increment) :=
  queueWire_spends c fun _ h => encodeWindowUpdate_length h

theorem queueRstStream_spends (c : Connection) (streamId : Nat) (errorCode : ErrorCode) :
    Spends c 13 (Strict.queueRstStream c streamId errorCode) (c.queueRstStream streamId errorCode) :=
  queueWire_spends c fun _ h => encodeRstStream_length h

/-! ## Windows and SETTINGS -/

theorem refreshStreamRecvWindow_spends (c : Connection) (pos : Fin connMaxStreams) :
    Spends c 13 (Strict.refreshStreamRecvWindow c pos) (c.refreshStreamRecvWindow pos) := by
  unfold Strict.refreshStreamRecvWindow refreshStreamRecvWindow
  dsimp only
  split
  · have hwindow : load (c.setStream pos { c.streams pos with
        recvWindow := (c.streams pos).recvWindow
          + toInt32 (toUInt32 (defaultWindowSize - (c.streams pos).recvWindow)) }) ≤ load c :=
      load_setStream_le le_rfl
    refine Spends.after ?_ hwindow
    refine Spends.orInternal (fun conn => (.ok, conn)) 0 (queueWindowUpdate_spends _ _ _) fun _ => ?_
    exact .skip le_rfl _
  · exact .skip le_rfl _

theorem refreshConnRecvWindow_spends (c : Connection) :
    Spends c 13 (Strict.refreshConnRecvWindow c) c.refreshConnRecvWindow := by
  unfold Strict.refreshConnRecvWindow refreshConnRecvWindow
  dsimp only
  split
  · have hqueued := queueWindowUpdate_spends
      { c with
        connRecvWindow := c.connRecvWindow
          + toInt32 (toUInt32 (defaultWindowSize - c.connRecvWindow)) }
      0 (toUInt32 (defaultWindowSize - c.connRecvWindow))
    refine Spends.after ?_ (le_refl (load c))
    refine Spends.orInternal (fun conn => (.ok, conn)) 0 hqueued fun _ => ?_
    exact .skip le_rfl _
  · exact .skip le_rfl _

theorem refreshRecvWindows_spends (c : Connection) (stream : Option (Fin connMaxStreams)) :
    Spends c 26 (Strict.refreshRecvWindows c stream) (c.refreshRecvWindows stream) := by
  refine (refreshConnRecvWindow_spends c).andThen 13 fun _ => ?_
  cases stream with
  | none => exact .skip le_rfl _
  | some pos => exact refreshStreamRecvWindow_spends _ pos

/-- No entry of a SETTINGS frame queues anything or changes what is owed. -/
theorem load_shiftSendWindows (delta : Int) (ps : List (Fin connMaxStreams)) (c : Connection) :
    load (shiftSendWindows delta ps c).2 ≤ load c := by
  induction ps generalizing c with
  | nil => exact le_rfl
  | cons pos ps ih =>
      rw [shiftSendWindows]
      dsimp only
      split_ifs
      · exact le_rfl
      · exact (ih _).trans (load_setStream_le le_rfl)
      · exact ih c

theorem load_applySetting (c : Connection) (setting : Setting) :
    load (c.applySetting setting).2 ≤ load c := by
  rw [applySetting]
  split_ifs
  · exact le_rfl
  · exact le_rfl
  · exact le_rfl
  · have hshift := load_shiftSendWindows (setting.value - c.initialStreamWindow)
      (List.finRange connMaxStreams) c
    rcases hres : shiftSendWindows (setting.value - c.initialStreamWindow)
      (List.finRange connMaxStreams) c with ⟨ret, c'⟩
    rw [hres] at hshift
    by_cases hret : ret = .ok
    · subst hret
      exact hshift
    · rw [andThen_err hret]
      exact hshift
  · exact le_rfl
  · exact le_rfl
  · exact le_rfl

theorem load_applySettingsLoop (settings : List Setting) (c : Connection) :
    load (applySettingsLoop settings c).2 ≤ load c := by
  induction settings generalizing c with
  | nil => exact le_rfl
  | cons setting settings ih =>
      have hfirst := load_applySetting c setting
      rw [applySettingsLoop]
      rcases hres : c.applySetting setting with ⟨ret, c'⟩
      rw [hres] at hfirst
      by_cases hret : ret = .ok
      · subst hret
        exact (ih c').trans hfirst
      · rw [andThen_err hret]
        exact hfirst

theorem applySettings_spends (c : Connection) (header : FrameHeader) (payload : List UInt8) :
    Spends c 9 (Strict.applySettings c header payload) (c.applySettings header payload) := by
  unfold Strict.applySettings applySettings
  rcases parseSettings header payload 32 with ret | settings
  · exact .skip le_rfl _
  · dsimp only
    split
    · exact .skip le_rfl _
    · have hloop : Spends c 0 (some (applySettingsLoop settings c)) (applySettingsLoop settings c) :=
        .skip (load_applySettingsLoop settings c) _
      exact (hloop.andThen 9 fun _ => queueSettingsAck_spends _).mono (by omega)

/-! ## Responses -/

theorem owed_sendEndStream {s : Stream} (h : s.responseBodyDeferred = false) :
    owed (Stream.sendEndStream s).2 = 0 := by
  have hnone : (Stream.sendEndStream s).2.responseBodyDeferred = false := by
    unfold Stream.sendEndStream
    split_ifs
    · exact h
    · rfl
    · exact h
  rw [owed, hnone]
  rfl

theorem load_answered (c : Connection) (pos : Fin connMaxStreams) (len : Nat) :
    load (c.answered pos len) + owed (c.streams pos) = load c := by
  unfold answered
  have hsame : load { c with
      connSendWindow := c.connSendWindow - len
      responsesSent := (c.responsesSent + 1) % 4294967296 } = load c := load_congr rfl rfl rfl
  rw [← hsame]
  refine (load_setStream _ pos _).trans ?_
  rw [owed_sendEndStream rfl, Nat.add_zero]

/-- **A response body costs what is not yet owed of it**: put off or sent, the load does not count
it twice. -/
theorem queueDeferredData_spends (hcost : frameHeaderLen
      + (responseBody (c.streams pos).path).length ≤ owed (c.streams pos) + cost) :
    Spends c cost (Strict.queueDeferredData c pos (responseBody (c.streams pos).path))
      (c.queueDeferredData pos (responseBody (c.streams pos).path)) := by
  intro hroom
  have hheld := owed_le_load c pos
  unfold Strict.queueDeferredData queueDeferredData
  split
  · have hset := load_setStream c pos { c.streams pos with responseBodyDeferred := true }
    have howed : owed { c.streams pos with responseBodyDeferred := true }
        = frameHeaderLen + (responseBody (c.streams pos).path).length := rfl
    refine ⟨rfl, ?_⟩
    show load (c.setStream pos { c.streams pos with responseBodyDeferred := true }) ≤ _
    omega
  · rcases hwire : encodeData (frameHeaderLen + 1024) (c.streams pos).id flagEndStream
      (responseBody (c.streams pos).path) with _ | wire
    · exact ⟨rfl, Nat.le_add_right _ _⟩
    · have hlen := encodeData_length hwire
      obtain ⟨hqueued, hstrict⟩ := @queueBytes_of_room c wire (by omega)
      rw [Strict.queueWire, queueWire, hqueued, hstrict]
      -- the DATA frame is in the output, and nothing is owed for it any more
      have hload := load_answered (c.queued wire) pos (responseBody (c.streams pos).path).length
      have hsame : owed ((c.queued wire).streams pos) = owed (c.streams pos) := rfl
      rw [load_queued, hsame] at hload
      refine ⟨rfl, ?_⟩
      show load ((c.queued wire).answered pos (responseBody (c.streams pos).path).length) ≤ _
      omega

theorem queueResponseHeaders_spends (c : Connection) (pos : Fin connMaxStreams) {n : Nat}
    (h : n < 1000) : Spends c 70 (Strict.queueResponseHeaders c pos (decimal n))
      (c.queueResponseHeaders pos (decimal n)) := by
  have hblock := responseBlock_length_le h
  have hqueued : Spends c 70
      (Strict.queueWire c (encodeHeaders (frameHeaderLen + 1024) (c.streams pos).id flagEndHeaders
        (responseBlock n)))
      (c.queueWire (encodeHeaders (frameHeaderLen + 1024) (c.streams pos).id flagEndHeaders
        (responseBlock n))) := by
    refine queueWire_spends c fun bytes hbytes => ?_
    rw [encodeHeaders_length hbytes, frameHeaderLen]
    omega
  unfold Strict.queueResponseHeaders queueResponseHeaders
  rw [responseHeaderBlock_eq h]
  refine Spends.orInternal (fun conn =>
    (.ok, conn.setStream pos { conn.streams pos with responseHeadersSent := true })) 0 hqueued
    fun _ => ?_
  refine .skip (load_setStream_le ?_) _
  exact le_rfl

/-- `queue_response` with a path read, as `queueResponse_eq`. -/
theorem strict_queueResponse_eq (hc : Inv c) (hbody : (c.streams pos).responseSent = false)
    (hpath : (c.streams pos).path ≠ []) :
    Strict.queueResponse c pos
      = Checked.andThen
          (if (c.streams pos).responseHeadersSent then some (.ok, c)
            else Strict.queueResponseHeaders c pos
              (decimal (responseBody (c.streams pos).path).length))
          fun c' => Strict.queueDeferredData c' pos (responseBody (c.streams pos).path) := by
  have hlen := responseBody_length_le hc pos
  have hdec := decimal_length_le (show (responseBody (c.streams pos).path).length < 1000 by omega)
  rw [Strict.queueResponse, if_neg (by simp [hbody])]
  simp only [if_neg hpath]
  rw [if_neg (by omega), if_neg (by omega)]

/-- **A whole response** costs its HEADERS frame and its DATA frame. -/
theorem queueResponse_spends (hc : Inv c) (h0 : (c.streams pos).id ≠ 0)
    (hnew : (c.streams pos).responseHeadersSent = false)
    (hbody : (c.streams pos).responseSent = false) (hpath : (c.streams pos).path ≠ []) :
    Spends c (80 + (c.streams pos).path.length) (Strict.queueResponse c pos)
      (c.queueResponse pos) := by
  have hlen := responseBody_length_le hc pos
  rw [strict_queueResponse_eq hc hbody hpath, queueResponse_eq hc hbody hpath,
    if_neg (by simp [hnew]), if_neg (by simp [hnew])]
  have hheaders := queueResponseHeaders_spends c pos
    (show (responseBody (c.streams pos).path).length < 1000 by omega)
  rcases hres : c.queueResponseHeaders pos (decimal (responseBody (c.streams pos).path).length)
    with ⟨ret, c'⟩
  rw [hres] at hheaders
  refine Spends.mono (hheaders.andThen (10 + (c.streams pos).path.length) fun hok => ?_) (by omega)
  -- the slot after the headers has the same path
  have hslot : (c'.streams pos).path = (c.streams pos).path := by
    rw [queueResponseHeaders_eq hc h0] at hres
    split at hres
    · obtain ⟨-, rfl⟩ := Prod.mk.inj hres
      simp
    · obtain ⟨rfl, -⟩ := Prod.mk.inj hres
      cases hok
  show Spends c' _ _ _
  rw [← hslot]
  apply queueDeferredData_spends
  rw [responseBody_length, frameHeaderLen]
  omega

/-- A response that was put off costs nothing. -/
theorem queueResponse_deferred_spends (hc : Inv c)
    (hd : (c.streams pos).responseBodyDeferred = true) :
    Spends c 0 (Strict.queueResponse c pos) (c.queueResponse pos) := by
  obtain ⟨-, hhead, hbody, hpath⟩ := (hc.slot pos).deferred hd
  have hstrict : Strict.queueResponse c pos
      = Strict.queueDeferredData c pos (responseBody (c.streams pos).path) := by
    rw [strict_queueResponse_eq hc hbody hpath, if_pos hhead]
    rfl
  rw [hstrict, queueResponse_deferred hc hd]
  apply queueDeferredData_spends
  rw [owed, if_pos hd]
  exact Nat.le_add_right _ _

/-- **Flushing responses costs nothing**, however many there are. -/
theorem flushDeferredLoop_spends (hc : Inv c) (ps : List (Fin connMaxStreams)) :
    Spends c 0 (Strict.flushDeferredLoop ps c) (flushDeferredLoop ps c) := by
  induction ps generalizing c with
  | nil => exact .skip le_rfl _
  | cons pos rest ih =>
      rw [Strict.flushDeferredLoop, flushDeferredLoop]
      by_cases hd : live (c.streams pos) ∧ (c.streams pos).responseBodyDeferred
      · obtain ⟨hst, hhead, hbody, hpath⟩ := (hc.slot pos).deferred hd.2
        have hinv : Inv (c.queueResponse pos).2 := by
          rw [queueResponse_deferred hc hd.2]
          exact (queueDeferredData_does hc ⟨(live_iff.mp hd.1).1, hst⟩ hhead hbody hpath).inv hc
        rw [if_pos hd, if_pos hd]
        exact (queueResponse_deferred_spends hc hd.2).andThen 0 fun _ => ih hinv
      · rw [if_neg hd, if_neg hd]
        exact ih hc

theorem flushDeferredResponses_spends (hc : Inv c) :
    Spends c 0 (Strict.flushDeferredResponses c) c.flushDeferredResponses :=
  flushDeferredLoop_spends hc _

end Connection

end C11Omo.Http2
