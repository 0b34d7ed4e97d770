import C11Omo.Http2.CheckedConnection
import C11Omo.Http2.Run

set_option autoImplicit false

/-! # All input handling stays in bounds

A handler that gets buffers within their sizes fails no check and leaves them so (`Agrees`), for any
payload. So no check fails in any run, also after errors: the run of the checked code is the run of
the code (`input_in_bounds`).
-/

namespace C11Omo.Http2.Checked

open C11Omo.Lib C11Omo.Lib.Checked

/-! ## Buffers within their sizes -/

/-- The input is the given one, and the other buffers are within their sizes. -/
structure Buffers (input : List UInt8) (c : Connection) : Prop where
  input : c.input = input
  output : c.output.length ≤ connOutputCap
  headerBlock : c.headerBlock.length ≤ headerBlockCap
  path : ∀ pos, PathText (c.streams pos).path

/-- No check fails: the result is that of the unchecked code, with buffers within their sizes. -/
def Agrees (input : List UInt8) (checked : Option (ErrorCode × Connection))
    (r : ErrorCode × Connection) : Prop :=
  checked = some r ∧ Buffers input r.2

section

variable {input : List UInt8} {c : Connection}

theorem Buffers.setStream (h : Buffers input c) {s : Stream} (hs : PathText s.path)
    (pos : Fin connMaxStreams) : Buffers input (c.setStream pos s) := by
  refine ⟨h.input, h.output, h.headerBlock, fun other => ?_⟩
  by_cases heq : other = pos
  · rw [heq]
    show PathText (Function.update c.streams pos s pos).path
    rwa [Function.update_self]
  · show PathText (Function.update c.streams pos s other).path
    rw [Function.update_of_ne heq]
    exact h.path other

/-- A stream that keeps its path. -/
theorem Buffers.updateStream (h : Buffers input c) {s : Stream} {pos : Fin connMaxStreams}
    (hs : s.path = (c.streams pos).path) : Buffers input (c.setStream pos s) :=
  h.setStream (hs ▸ h.path pos) pos

theorem Buffers.closeStream (h : Buffers input c) (pos other : Fin connMaxStreams) :
    Buffers input (c.setStream pos (c.streams other).close) :=
  h.setStream PathText.nil pos

theorem Agrees.pure (h : Buffers input c) (ret : ErrorCode) : Agrees input (pure (ret, c)) (ret, c) :=
  ⟨rfl, h⟩

/-- **What runs after a success** agrees if it agrees on every connection that fits its buffers. -/
theorem Agrees.andThen {first : Option (ErrorCode × Connection)} {r : ErrorCode × Connection}
    {next' : Connection → Option (ErrorCode × Connection)}
    {next : Connection → ErrorCode × Connection} (h : Agrees input first r)
    (hnext : ∀ c, Buffers input c → Agrees input (next' c) (next c)) :
    Agrees input (andThen first next') (Connection.andThen r next) := by
  obtain ⟨rfl, hbuf⟩ := h
  obtain ⟨ret, conn⟩ := r
  by_cases hret : ret = .ok
  · subst hret
    exact hnext conn hbuf
  · rw [Connection.andThen_err hret]
    cases ret with
    | ok => exact absurd rfl hret
    | _ => exact ⟨rfl, hbuf⟩

theorem Agrees.orInternal {first : Option (ErrorCode × Connection)} {r : ErrorCode × Connection}
    {next' : Connection → Option (ErrorCode × Connection)}
    (next : Connection → ErrorCode × Connection) :
    Agrees input first r → (∀ c, Buffers input c → Agrees input (next' c) (next c)) →
      Agrees input (orInternal first next')
        (match r with
          | (.ok, conn) => next conn
          | (_, conn) => (.internalError, conn)) := by
  rintro ⟨rfl, hbuf⟩ hnext
  obtain ⟨ret, conn⟩ := r
  cases ret with
  | ok => exact hnext conn hbuf
  | _ => exact ⟨rfl, hbuf⟩

/-! ## The output queue -/

theorem compactOutput_agrees (h : Buffers input c) :
    compactOutput c = some c.compactOutput ∧ Buffers input c.compactOutput := by
  rw [compactOutput, Connection.compactOutput]
  by_cases h0 : c.outputSent = 0
  · rw [if_pos h0, if_pos h0]
    exact ⟨rfl, h⟩
  · rw [if_neg h0, if_neg h0]
    by_cases hall : c.outputSent ≥ c.output.length
    · rw [if_pos hall, if_pos hall]
      exact ⟨rfl, { h with output := Nat.zero_le _ }⟩
    · have hout := h.output
      have hlen : (c.output.drop c.outputSent).length ≤ connOutputCap := by
        rw [List.length_drop]
        omega
      rw [if_neg hall, if_neg hall, sub_of_le (by omega)]
      simp only [Option.bind_eq_bind, Option.bind_some]
      rw [slice_of_le (by omega),
        List.take_of_length_le (by rw [List.length_drop])]
      simp only [Option.bind_some]
      rw [write_of_le (by rw [List.length_nil, Nat.zero_add]; exact hlen)]
      exact ⟨rfl, { h with output := hlen }⟩

theorem queueBytes_agrees (h : Buffers input c) (data : List UInt8) :
    Agrees input (queueBytes c data) (c.queueBytes data) := by
  obtain ⟨hcompact, hbuf⟩ := compactOutput_agrees h
  have hout := hbuf.output
  rw [queueBytes, Connection.queueBytes, hcompact]
  simp only [Option.bind_eq_bind, Option.bind_some]
  rw [sub_of_le hout]
  simp only [Option.bind_some]
  by_cases hbig : data.length > connOutputCap - c.compactOutput.output.length
  · rw [if_pos hbig, if_pos hbig]
    exact .pure hbuf _
  · rw [if_neg hbig, if_neg hbig, write_of_le (by omega)]
    refine ⟨rfl, { hbuf with output := ?_ }⟩
    show (c.compactOutput.output ++ data).length ≤ _
    rw [List.length_append]
    omega

/-- An encoder that fails no check, and its frame in the queue. -/
theorem queueWire_agrees (h : Buffers input c) {checked : Option (Option (List UInt8))}
    {wire : Option (List UInt8)} (hwire : checked = some wire) :
    Agrees input (queueWire c checked) (c.queueWire wire) := by
  subst hwire
  cases wire with
  | none => exact .pure h _
  | some bytes => exact queueBytes_agrees h bytes

theorem queueGoaway_agrees (h : Buffers input c) (errorCode : ErrorCode) :
    Agrees input (queueGoaway c errorCode) (c.queueGoaway errorCode) := by
  rw [queueGoaway, Connection.queueGoaway]
  by_cases hsent : c.goawaySent = true
  · rw [if_pos hsent, if_pos hsent]
    exact .pure h _
  · rw [if_neg hsent, if_neg hsent, encodeGoaway_eq _ _ _ (by decide)]
    simp only [Option.bind_eq_bind, Option.bind_some]
    rcases Http2.encodeGoaway (frameHeaderLen + 8) c.lastStreamId errorCode.toNat [] with _ | wire
    · exact .pure h _
    · have hbuf : Buffers input { c with
          goawaySent := true, goawayError := errorCode.toNat } := { h with }
      exact queueBytes_agrees hbuf wire

theorem queueSettings_agrees (h : Buffers input c) :
    Agrees input (queueSettings c) c.queueSettings :=
  queueWire_agrees h (encodeSettings_eq ..)

theorem queueSettingsAck_agrees (h : Buffers input c) :
    Agrees input (queueSettingsAck c) c.queueSettingsAck :=
  queueWire_agrees h (encodeSettings_eq ..)

theorem queueWindowUpdate_agrees (h : Buffers input c) (streamId increment : Nat) :
    Agrees input (queueWindowUpdate c streamId increment)
      (c.queueWindowUpdate streamId increment) :=
  queueWire_agrees h (encodeWindowUpdate_eq ..)

theorem queueRstStream_agrees (h : Buffers input c) (streamId : Nat) (errorCode : ErrorCode) :
    Agrees input (queueRstStream c streamId errorCode) (c.queueRstStream streamId errorCode) :=
  queueWire_agrees h (encodeRstStream_eq ..)

/-! ## Windows and SETTINGS -/

theorem refreshStreamRecvWindow_agrees (h : Buffers input c) (pos : Fin connMaxStreams) :
    Agrees input (refreshStreamRecvWindow c pos) (c.refreshStreamRecvWindow pos) := by
  rw [refreshStreamRecvWindow, Connection.refreshStreamRecvWindow]
  dsimp only
  split_ifs
  · have hbuf := @Buffers.updateStream input c h { c.streams pos with
      recvWindow := (c.streams pos).recvWindow
        + toInt32 (toUInt32 (defaultWindowSize - (c.streams pos).recvWindow)) } pos rfl
    exact .orInternal (fun c => (.ok, c)) (queueWindowUpdate_agrees hbuf _ _) fun c h => .pure h .ok
  · exact .pure h _

theorem refreshRecvWindows_agrees (h : Buffers input c) (stream : Option (Fin connMaxStreams)) :
    Agrees input (refreshRecvWindows c stream) (c.refreshRecvWindows stream) := by
  have hconn : Agrees input (refreshConnRecvWindow c) c.refreshConnRecvWindow := by
    rw [refreshConnRecvWindow, Connection.refreshConnRecvWindow]
    dsimp only
    split_ifs
    · have hbuf : Buffers input { c with
          connRecvWindow := c.connRecvWindow
            + toInt32 (toUInt32 (defaultWindowSize - c.connRecvWindow)) } := { h with }
      exact .orInternal (fun c => (.ok, c)) (queueWindowUpdate_agrees hbuf _ _) fun c h => .pure h .ok
    · exact .pure h _
  refine hconn.andThen fun c h => ?_
  cases stream with
  | none => exact .pure h _
  | some pos => exact refreshStreamRecvWindow_agrees h pos

theorem Buffers.shiftSendWindows {delta : Int} (ps : List (Fin connMaxStreams))
    (h : Buffers input c) : Buffers input (Connection.shiftSendWindows delta ps c).2 := by
  induction ps generalizing c with
  | nil => exact h
  | cons pos ps ih =>
      rw [Connection.shiftSendWindows]
      dsimp only
      split_ifs
      · exact h
      · refine ih (h.updateStream ?_)
        rfl
      · exact ih h

theorem Buffers.applySetting (h : Buffers input c) (setting : Setting) :
    Buffers input (c.applySetting setting).2 := by
  rw [Connection.applySetting]
  split_ifs
  · exact h
  · exact h
  · exact h
  · have hshift := @Buffers.shiftSendWindows input c (setting.value - c.initialStreamWindow)
      (List.finRange connMaxStreams) h
    rcases hres : Connection.shiftSendWindows (setting.value - c.initialStreamWindow)
      (List.finRange connMaxStreams) c with ⟨ret, c'⟩
    rw [hres] at hshift
    by_cases hret : ret = .ok
    · subst hret
      exact { hshift with }
    · rw [Connection.andThen_err hret]
      exact hshift
  · exact h
  · exact { h with }
  · exact h

theorem Buffers.applySettingsLoop (h : Buffers input c) (settings : List Setting) :
    Buffers input (Connection.applySettingsLoop settings c).2 := by
  induction settings generalizing c with
  | nil => exact h
  | cons setting settings ih =>
      have hone := h.applySetting setting
      rw [Connection.applySettingsLoop]
      rcases hres : c.applySetting setting with ⟨ret, c'⟩
      rw [hres] at hone
      by_cases hret : ret = .ok
      · subst hret
        exact ih hone
      · rw [Connection.andThen_err hret]
        exact hone

theorem applySettings_agrees (h : Buffers input c) {header : FrameHeader} {payload : List UInt8}
    (hlen : header.length ≤ payload.length) :
    Agrees input (applySettings c header payload) (c.applySettings header payload) := by
  rw [applySettings, Connection.applySettings, parseSettings_eq hlen]
  simp only [Option.bind_eq_bind, Option.bind_some]
  rcases Http2.parseSettings header payload 32 with ret | settings
  · exact .pure h _
  · dsimp only
    split_ifs
    · exact .pure h _
    · have hloop : Agrees input (pure (Connection.applySettingsLoop settings c))
          (Connection.applySettingsLoop settings c) := ⟨rfl, h.applySettingsLoop settings⟩
      exact hloop.andThen fun c h => queueSettingsAck_agrees h

/-! ## Responses -/

theorem pathText_receiveHeaders {s : Stream} (h : PathText s.path) (endStream : Bool) :
    PathText (s.receiveHeaders endStream).2.path := by
  rw [Stream.receiveHeaders]
  split_ifs
  · exact h
  · exact h
  · exact h

theorem pathText_receiveData {s : Stream} (h : PathText s.path) (dataLen : Nat)
    (endStream : Bool) : PathText (s.receiveData dataLen endStream).2.path := by
  rw [Stream.receiveData]
  dsimp only
  split_ifs
  · exact h
  · exact h
  · exact h
  · exact PathText.nil
  · exact h
  · exact h

theorem pathText_addSendWindow {s : Stream} (h : PathText s.path) (increment : Nat) :
    PathText (s.addSendWindow increment).2.path := by
  rw [Stream.addSendWindow]
  split_ifs
  · exact h
  · exact h
  · exact h

theorem pathText_sendEndStream {s : Stream} (h : PathText s.path) :
    PathText s.sendEndStream.2.path := by
  rw [Stream.sendEndStream]
  split_ifs
  · exact h
  · exact PathText.nil
  · exact h

theorem queueDeferredData_agrees (h : Buffers input c) (pos : Fin connMaxStreams)
    (body : List UInt8) : Agrees input (queueDeferredData c pos (body ++ [0]) body.length)
      (c.queueDeferredData pos body) := by
  rw [queueDeferredData, Connection.queueDeferredData]
  split_ifs
  · refine .pure (h.updateStream ?_) _
    rfl
  · have hin : 0 + body.length ≤ (body ++ [0]).length := by
      rw [List.length_append]
      omega
    rw [slice_of_le hin, List.drop_zero, List.take_left]
    refine .orInternal _ (queueWire_agrees h (encodeData_eq ..)) fun c h => ?_
    have htext := @pathText_sendEndStream { c.streams pos with
      sendWindow := (c.streams pos).sendWindow - body.length
      responseBodyDeferred := false
      responseSent := true } (h.path pos)
    have hbuf : Buffers input { c with
      connSendWindow := c.connSendWindow - body.length
      responsesSent := (c.responsesSent + 1) % 4294967296 } := { h with }
    exact .pure (hbuf.setStream htext pos) _

/-- A chunk that its encoder writes into the room it is told fits the header block. -/
theorem addChunk_eq {encode : Nat → Option (Option (List UInt8))}
    {encoded : Nat → Option (List UInt8)} (hencode : ∀ room, encode room = some (encoded room))
    (hfit : ∀ room chunk, encoded room = some chunk → chunk.length ≤ room) {block : List UInt8}
    (hblock : block.length ≤ 512) :
    addChunk encode block = some ((encoded (512 - block.length)).map (block ++ ·)) := by
  rw [addChunk, sub_of_le hblock]
  simp only [Option.bind_eq_bind, Option.bind_some]
  rw [hencode]
  rcases hchunk : encoded (512 - block.length) with _ | chunk
  · rfl
  · have hroom := hfit _ _ hchunk
    simp only [Option.bind_some]
    rw [write_of_le (by omega)]
    rfl

theorem encodeIndexed_length {cap : Nat} {chunk : List UInt8}
    (h : Http2.encodeIndexed cap 8 = some chunk) : chunk.length ≤ cap := by
  have hint : Http2.encodeIndexed cap 8 = Http2.encodeInteger cap 7 0x80 8 := rfl
  rw [hint, encodeInteger_eq (by decide) (by decide) (by decide)] at h
  split_ifs at h with hfit
  obtain rfl := Option.some.inj h
  exact hfit

theorem encodeLiteralNewName_length {cap : Nat} {name value chunk : List UInt8}
    (h : Http2.encodeLiteralNewName cap name value = some chunk) : chunk.length ≤ cap := by
  rw [Http2.encodeLiteralNewName] at h
  split_ifs at h
  rcases hname : Http2.encodeString (cap - 1) name with _ | nameBytes
  · rw [hname] at h
    cases h
  · have hlen := encodeString_length hname
    rw [hname] at h
    simp only at h
    rcases hvalue : Http2.encodeString (cap - (1 + nameBytes.length)) value with _ | valueBytes
    · rw [hvalue] at h
      cases h
    · have hlen' := encodeString_length hvalue
      rw [hvalue] at h
      obtain rfl := Option.some.inj h
      rw [List.length_append, List.length_cons]
      omega

theorem responseHeaderBlock_eq (contentLength : List UInt8) :
    responseHeaderBlock (contentLength ++ [0])
      = some (Connection.responseHeaderBlock contentLength) := by
  have hindexed := @addChunk_eq (encodeIndexed · 8) (Http2.encodeIndexed · 8)
    (fun room => encodeIndexed_eq room 8) (fun room chunk => encodeIndexed_length)
  have hliteral := fun name value : List UInt8 =>
    @addChunk_eq (encodeLiteralNewName · (name ++ [0]) (value ++ [0]))
      (Http2.encodeLiteralNewName · name value)
      (fun room => encodeLiteralNewName_eq room name value)
      (fun room chunk => encodeLiteralNewName_length)
  -- field by field: the room that the next encoder is given is `512 - len`, and `len <= 512`
  rw [responseHeaderBlock, Connection.responseHeaderBlock, hindexed (Nat.zero_le _)]
  simp only [Option.bind_eq_bind, Option.bind_some, List.length_nil, Nat.sub_zero]
  rcases hstatus : Http2.encodeIndexed 512 8 with _ | status
  · rfl
  · have hlen := encodeIndexed_length hstatus
    simp only [Option.map_some, List.nil_append, Option.bind_some]
    rw [hliteral _ _ hlen]
    rcases htype : Http2.encodeLiteralNewName (512 - status.length) (ascii "content-type")
      (ascii "text/plain") with _ | contentType
    · rfl
    · have hlen' := encodeLiteralNewName_length htype
      have hblock : (status ++ contentType).length ≤ 512 := by
        rw [List.length_append]
        omega
      simp only [Option.map_some, Option.bind_some]
      rw [hliteral _ _ hblock]
      rcases hcount : Http2.encodeLiteralNewName (512 - (status ++ contentType).length)
        (ascii "content-length") contentLength with _ | contentLen
      · rfl
      · have hlen'' := encodeLiteralNewName_length hcount
        have hblock' : (status ++ contentType ++ contentLen).length ≤ 512 := by
          rw [List.length_append]
          omega
        simp only [Option.map_some, Option.bind_some]
        rw [hliteral _ _ hblock']
        rcases Http2.encodeLiteralNewName (512 - (status ++ contentType ++ contentLen).length)
          (ascii "server") (ascii "c11-h2") with _ | server
        · rfl
        · rfl

theorem queueResponseHeaders_agrees (h : Buffers input c) (pos : Fin connMaxStreams)
    (contentLength : List UInt8) :
    Agrees input (queueResponseHeaders c pos (contentLength ++ [0]))
      (c.queueResponseHeaders pos contentLength) := by
  rw [queueResponseHeaders, Connection.queueResponseHeaders, responseHeaderBlock_eq]
  simp only [Option.bind_eq_bind, Option.bind_some]
  rcases Connection.responseHeaderBlock contentLength with _ | block
  · exact .pure h _
  · refine .orInternal _ (queueWire_agrees h (encodeHeaders_eq ..)) fun c h => ?_
    refine .pure (h.updateStream ?_) _
    rfl

/-- The path array of a stream. -/
theorem pathArray_eq {s : Stream} (h : PathText s.path) : pathArray s = some (s.path ++ [0]) := by
  have hlen := h.1
  rw [streamPathCap] at hlen
  rw [pathArray, write_of_le (by
    rw [List.length_append, List.length_singleton, List.length_nil, streamPathCap]
    omega)]
  rfl

theorem defaultPath_eq (h : Buffers input c) (pos : Fin connMaxStreams) :
    defaultPath c pos = some (if (c.streams pos).path = [] then
        c.setStream pos { c.streams pos with path := ascii "/" }
      else c) := by
  have htext := h.path pos
  rw [defaultPath, pathArray_eq htext]
  simp only [Option.bind_eq_bind, Option.bind_some]
  rcases hpath : (c.streams pos).path with _ | ⟨b, bs⟩
  · rfl
  · -- a text has no zero before its end
    have hb : b ≠ 0 := fun hb => htext.2 (by rw [hpath, hb]; exact List.mem_cons_self ..)
    rw [List.cons_append, read_cons_zero]
    simp only [Option.bind_some]
    rw [if_neg hb, if_neg (List.cons_ne_nil b bs)]
    rfl

theorem queueResponse_agrees (h : Buffers input c) (pos : Fin connMaxStreams) :
    Agrees input (queueResponse c pos) (c.queueResponse pos) := by
  rw [queueResponse, Connection.queueResponse]
  by_cases hsent : (c.streams pos).responseSent = true
  · rw [if_pos hsent, if_pos hsent]
    exact .pure h _
  · rw [if_neg hsent, if_neg hsent, defaultPath_eq h]
    simp only [Option.bind_eq_bind, Option.bind_some]
    have hbuf : Buffers input (if (c.streams pos).path = [] then
        c.setStream pos { c.streams pos with path := ascii "/" }
      else c) := by
      have hslash : PathText (ascii "/") := ⟨by decide, by decide⟩
      split_ifs
      · exact h.setStream hslash pos
      · exact h
    generalize (if (c.streams pos).path = [] then
        c.setStream pos { c.streams pos with path := ascii "/" }
      else c) = d at hbuf ⊢
    have htext := hbuf.path pos
    -- the text of the path is read up to its terminating zero
    have hread : (((d.streams pos).path ++ [0]).drop 0).take (d.streams pos).path.length
        = (d.streams pos).path := by
      rw [List.drop_zero, List.take_left]
    rw [pathArray_eq htext]
    simp only [Option.bind_some]
    rw [strlen_terminated, cstr_eq_self htext.2]
    simp only [Option.bind_some]
    rw [slice_of_le (by rw [List.length_append]; omega), hread]
    simp only [Option.bind_some]
    rw [snprintf_eq (by decide), Connection.responseBody]
    simp only [Option.bind_some]
    by_cases hlong : ((d.streams pos).path ++ [0x0a]).length ≥ 320
    · rw [if_pos hlong, if_pos hlong]
      exact .pure hbuf _
    · rw [if_neg hlong, if_neg hlong, snprintf_eq (by decide)]
      simp only [Option.bind_some]
      by_cases hdigits : (Connection.decimal ((d.streams pos).path ++ [0x0a]).length).length ≥ 32
      · rw [if_pos hdigits, if_pos hdigits]
        exact .pure hbuf _
      · rw [if_neg hdigits, if_neg hdigits, List.take_of_length_le (by omega),
          List.take_of_length_le (by omega)]
        have hheaders : Agrees input
            (if (d.streams pos).responseHeadersSent = true then pure (.ok, d)
              else queueResponseHeaders d pos
                (Connection.decimal ((d.streams pos).path ++ [0x0a]).length ++ [0]))
            (if (d.streams pos).responseHeadersSent = true then (.ok, d)
              else d.queueResponseHeaders pos
                (Connection.decimal ((d.streams pos).path ++ [0x0a]).length)) := by
          split_ifs
          · exact .pure hbuf _
          · exact queueResponseHeaders_agrees hbuf pos _
        exact hheaders.andThen fun c h => queueDeferredData_agrees h pos _

theorem flushDeferredLoop_agrees (ps : List (Fin connMaxStreams)) (h : Buffers input c) :
    Agrees input (flushDeferredLoop ps c) (Connection.flushDeferredLoop ps c) := by
  induction ps generalizing c with
  | nil => exact .pure h _
  | cons pos ps ih =>
      rw [flushDeferredLoop, Connection.flushDeferredLoop]
      split_ifs
      · exact (queueResponse_agrees h pos).andThen fun c h => ih h
      · exact ih h

/-! ## Header blocks -/

theorem Buffers.getStream (h : Buffers input c) (streamId : Nat) :
    Buffers input (c.getStream streamId).2 := by
  rw [Connection.getStream]
  split
  · exact h
  · split
    · exact h.setStream PathText.nil _
    · exact h

theorem finishHeaders_agrees (h : Buffers input c) (streamId : Nat) (flags : UInt8)
    (block : List UInt8) :
    Agrees input (finishHeaders c streamId flags block) (c.finishHeaders streamId flags block) := by
  rw [finishHeaders, Connection.finishHeaders]
  split_ifs
  · exact .pure h _
  · exact .pure h _
  · have hget := h.getStream streamId
    rcases hgot : c.getStream streamId with ⟨_ | pos, d⟩
    · rw [hgot] at hget
      exact .pure hget _
    · -- `stream->path` ends in a zero, so the copy and the later `strlen` stay inside it
      have htext := extractPath_pathText block
      rw [hgot] at hget
      dsimp only
      rw [extractPath_eq]
      simp only [Option.bind_eq_bind, Option.bind_some]
      rw [cstr_terminated htext.2]
      rcases hpath : Http2.extractPath block streamPathCap with ⟨ret, path⟩
      rw [hpath] at htext
      have hbuf : Buffers input ({ d with lastStreamId := streamId }.setStream pos
          { d.streams pos with path := path }) := by
        have hlast : Buffers input { d with lastStreamId := streamId } := { hget with }
        exact hlast.setStream htext pos
      dsimp only
      generalize ({ d with lastStreamId := streamId }.setStream pos
          { d.streams pos with path := path } : Connection) = e at hbuf ⊢
      have hopened := pathText_receiveHeaders (hbuf.path pos) (hasFlag flags flagEndStream)
      rcases hres : (e.streams pos).receiveHeaders (hasFlag flags flagEndStream) with ⟨ret', s⟩
      rw [hres] at hopened
      dsimp only
      split_ifs
      · exact .pure hbuf _
      · exact .pure (hbuf.setStream hopened pos) _
      · exact queueResponse_agrees (hbuf.setStream hopened pos) pos

theorem appendHeaderBlock_agrees (h : Buffers input c) (data : List UInt8) :
    Agrees input (appendHeaderBlock c data) (c.appendHeaderBlock data) := by
  have hblock := h.headerBlock
  rw [appendHeaderBlock, Connection.appendHeaderBlock, sub_of_le hblock]
  simp only [Option.bind_eq_bind, Option.bind_some]
  by_cases hbig : data.length > headerBlockCap - c.headerBlock.length
  · rw [if_pos hbig, if_pos hbig]
    exact .pure h _
  · rw [if_neg hbig, if_neg hbig, write_of_le (by omega)]
    refine ⟨rfl, { h with headerBlock := ?_ }⟩
    show (c.headerBlock ++ data).length ≤ _
    rw [List.length_append]
    omega

section

variable {header : FrameHeader} {payload : List UInt8}

theorem processHeaders_agrees (h : Buffers input c) (hlen : header.length ≤ payload.length) :
    Agrees input (processHeaders c header payload) (c.processHeaders header payload) := by
  rw [processHeaders, Connection.processHeaders, parseHeaders_eq hlen]
  simp only [Option.bind_eq_bind, Option.bind_some]
  rcases Http2.parseHeaders header payload with ret | parsed
  · exact .pure h _
  · dsimp only
    split_ifs
    · exact .pure h _
    · have hbuf : Buffers input { c with
          headerBlockOpen := true
          headerBlockStreamId := header.streamId
          headerBlockFlags := header.flags
          headerBlock := [] } := { h with headerBlock := Nat.zero_le _ }
      exact appendHeaderBlock_agrees hbuf parsed.headerBlock
    · exact finishHeaders_agrees h _ _ _

theorem processContinuation_agrees (h : Buffers input c) (hlen : header.length ≤ payload.length) :
    Agrees input (processContinuation c header payload)
      (c.processContinuation header payload) := by
  rw [processContinuation, Connection.processContinuation, parseContinuation_eq hlen]
  simp only [Option.bind_eq_bind, Option.bind_some]
  by_cases hguard : c.headerBlockOpen = false ∨ header.streamId ≠ c.headerBlockStreamId
  · rw [if_pos hguard, if_pos hguard]
    exact .pure h _
  · rw [if_neg hguard, if_neg hguard]
    rcases Http2.parseContinuation header payload with ret | fragment
    · exact .pure h _
    · refine (appendHeaderBlock_agrees h fragment).andThen fun c h => ?_
      split_ifs
      · exact .pure h _
      · have hbuf : Buffers input { c with headerBlockOpen := false } := { h with }
        exact finishHeaders_agrees hbuf _ _ _

/-! ## The other frames -/

theorem processData_agrees (h : Buffers input c) (hlen : header.length ≤ payload.length) :
    Agrees input (processData c header payload) (c.processData header payload) := by
  rw [processData, Connection.processData, parseData_eq hlen]
  simp only [Option.bind_eq_bind, Option.bind_some]
  rcases Http2.parseData header payload with ret | parsed
  · exact .pure h _
  · dsimp only
    rcases c.findStream header.streamId with _ | pos
    · exact .pure h _
    · have hcharged : Buffers input { c with
          connRecvWindow := c.connRecvWindow - toInt32 header.length } := { h with }
      have htext := pathText_receiveData (h.path pos) header.length
        (hasFlag header.flags flagEndStream)
      dsimp only
      rcases hres : (c.streams pos).receiveData header.length (hasFlag header.flags flagEndStream)
        with ⟨ret, s⟩
      rw [hres] at htext
      have hbuf := hcharged.setStream htext pos
      dsimp only
      split_ifs
      · exact .pure h _
      · obtain ⟨heq, hbuf'⟩ := refreshRecvWindows_agrees hcharged none
        rw [heq]
        exact .pure hbuf' _
      · exact .pure h _
      · exact .pure hbuf _
      · exact refreshRecvWindows_agrees hbuf none
      · exact refreshRecvWindows_agrees hbuf (some pos)

theorem processWindowUpdate_agrees (h : Buffers input c) (hlen : header.length ≤ payload.length) :
    Agrees input (processWindowUpdate c header payload)
      (c.processWindowUpdate header payload) := by
  rw [processWindowUpdate, Connection.processWindowUpdate, parseWindowUpdate_eq hlen]
  simp only [Option.bind_eq_bind, Option.bind_some]
  rcases Http2.parseWindowUpdate header payload with ret | increment
  · exact .pure h _
  · dsimp only
    by_cases hid : header.streamId = 0
    · rw [if_pos hid, if_pos hid]
      split_ifs
      · exact .pure h _
      · have hbuf : Buffers input { c with
            connSendWindow := c.connSendWindow + toInt32 increment } := { h with }
        exact flushDeferredLoop_agrees _ hbuf
    · rw [if_neg hid, if_neg hid]
      rcases c.findStream header.streamId with _ | pos
      · exact .pure h _
      · have htext := pathText_addSendWindow (h.path pos) increment
        dsimp only
        rcases hres : (c.streams pos).addSendWindow increment with ⟨ret, s⟩
        rw [hres] at htext
        have hbuf := h.setStream htext pos
        dsimp only
        split_ifs
        · exact .pure hbuf _
        · exact flushDeferredLoop_agrees _ hbuf

theorem processRstStream_agrees (h : Buffers input c) (hlen : header.length ≤ payload.length) :
    Agrees input (processRstStream c header payload) (c.processRstStream header payload) := by
  rw [processRstStream, Connection.processRstStream, parseRstStream_eq hlen]
  simp only [Option.bind_eq_bind, Option.bind_some]
  rcases Http2.parseRstStream header payload with ret | errorCode
  · exact .pure h _
  · dsimp only
    rcases c.findStream header.streamId with _ | pos
    · dsimp only
      split_ifs
      · exact .pure h _
      · exact .pure h _
      · exact .pure h _
    · exact .pure (h.closeStream pos pos) _

theorem processPing_agrees (h : Buffers input c) (hlen : header.length ≤ payload.length) :
    Agrees input (processPing c header payload) (c.processPing header payload) := by
  rw [processPing, Connection.processPing, parsePing_eq hlen]
  simp only [Option.bind_eq_bind, Option.bind_some]
  rcases hparse : Http2.parsePing header payload with ret | opaqueData
  · exact .pure h _
  · dsimp only
    split_ifs
    · exact .pure h _
    · have height : opaqueData.length = 8 := by
        rw [Http2.parsePing] at hparse
        split_ifs at hparse with htype hok
        have hallowed := allowed_of_ok (not_not.mp htype) (not_not.mp hok)
        obtain rfl := Except.ok.inj hparse
        rw [List.length_take]
        have hpayload : 8 ≤ payload.length := hallowed.2 ▸ hlen
        omega
      exact queueWire_agrees h (encodePing_eq _ _ height)

theorem resetStreamError_agrees (h : Buffers input c) (streamId : Nat) (errorCode : ErrorCode) :
    Agrees input (resetStreamError c streamId errorCode)
      (c.resetStreamError streamId errorCode) := by
  refine (queueRstStream_agrees h streamId errorCode).andThen fun d hd => ?_
  rcases c.findStream streamId with _ | pos
  · exact .pure hd _
  · exact .pure (hd.closeStream pos pos) _

/-- **Every frame**: no check fails for a payload of the length in the header. -/
theorem processFrame_agrees (h : Buffers input c) (hlen : header.length ≤ payload.length) :
    Agrees input (processFrame c header payload) (c.processFrame header payload) := by
  rw [processFrame, Connection.processFrame]
  by_cases hlong : header.length > c.maxFrameSize
  · rw [if_pos hlong, if_pos hlong]
    exact .pure h _
  · rw [if_neg hlong, if_neg hlong]
    by_cases hblock : c.headerBlockOpen ∧ (header.type ≠ FrameType.continuation.toByte ∨
        header.streamId ≠ c.headerBlockStreamId)
    · rw [if_pos hblock, if_pos hblock]
      exact .pure h _
    · rw [if_neg hblock, if_neg hblock]
      rcases FrameType.ofByte? header.type with _ | t
      · exact .pure h _
      · -- every handler is given the whole payload of the header it reads
        cases t with
        | data => exact processData_agrees h hlen
        | headers => exact processHeaders_agrees h hlen
        | priority =>
            dsimp only
            rw [parsePriority_eq hlen]
            simp only [Option.bind_eq_bind, Option.bind_some]
            rcases Http2.parsePriority header payload with ret | priority
            · exact .pure h _
            · exact .pure h _
        | rstStream => exact processRstStream_agrees h hlen
        | settings => exact applySettings_agrees h hlen
        | pushPromise => exact .pure h _
        | ping => exact processPing_agrees h hlen
        | goaway => exact .pure h _
        | windowUpdate => exact processWindowUpdate_agrees h hlen
        | continuation => exact processContinuation_agrees h hlen

end

end

/-! ## The interface -/

/-- All buffers of a connection are within their sizes. -/
structure Sized (c : Connection) : Prop where
  buffers : Buffers c.input c
  input_le : c.input.length ≤ connInputCap

/-- What an iteration of the loop leaves behind. -/
def StepSized (c : Connection) : Connection.FeedStep → Prop
  | .stop => True
  | .fail _ d => Sized d
  | .next d => Sized d ∧ d.input.length < c.input.length

section

variable {c : Connection}

theorem Buffers.sized {d : Connection} (h : Sized c) (hd : Buffers c.input d) : Sized d :=
  ⟨{ hd with input := rfl }, hd.input ▸ h.input_le⟩

theorem dropInput_sized (h : Sized c) {len : Nat} (hlen : len ≤ c.input.length) :
    dropInput c len = some (c.dropInput len) ∧ Sized (c.dropInput len) := by
  have hle := h.input_le
  have hdrop : (c.input.drop len).length ≤ connInputCap := by
    rw [List.length_drop]
    omega
  rw [dropInput, rest_of_le hlen]
  simp only [Option.bind_eq_bind, Option.bind_some]
  rw [write_of_le (by rw [List.length_nil, Nat.zero_add]; exact hdrop)]
  exact ⟨rfl, { h.buffers with input := rfl }, hdrop⟩

/-- **One iteration**: the frame at the front is handled with its payload and nothing else. -/
theorem feedStep_sized (h : Sized c) : feedStep c = some c.feedStep ∧ StepSized c c.feedStep := by
  rw [feedStep, Connection.feedStep]
  by_cases hshort : c.input.length < frameHeaderLen
  · rw [if_pos hshort, if_pos hshort]
    exact ⟨rfl, trivial⟩
  · rw [if_neg hshort, if_neg hshort, parseHeader_eq]
    simp only [Option.bind_eq_bind, Option.bind_some]
    rcases hparse : Http2.parseHeader c.input with ret | header
    · exact ⟨rfl, h⟩
    · obtain ⟨-, hsmall, -⟩ := parseHeader_ok hparse
      have hlimit : header.length ≤ 16777215 := hsmall
      dsimp only
      rw [add_of_lt (by rw [frameHeaderLen]; omega)]
      simp only [Option.bind_some]
      by_cases hlong : frameHeaderLen + header.length > c.input.length
      · rw [if_pos hlong, if_pos hlong]
        exact ⟨rfl, trivial⟩
      · -- the payload is all that the handler sees of the input
        have hcut : cutFrame c.input = some
            (Frame.of header.type header.flags header.streamId
              ((c.input.drop frameHeaderLen).take header.length),
              c.input.drop (frameHeaderLen + header.length)) := by
          rw [cutFrame, hparse]
          exact if_neg hlong
        obtain ⟨hheader, hpayload, -, -⟩ := cutFrame_eq_some hcut
        generalize Frame.of header.type header.flags header.streamId
          ((c.input.drop frameHeaderLen).take header.length) = f at hcut hheader hpayload
        rw [hparse] at hheader
        obtain rfl := Except.ok.inj hheader
        have hslice : (c.input.drop frameHeaderLen).take f.header.length = f.payload := by
          rw [hpayload, Frame.header_length, List.take_left]
        rw [if_neg hlong, if_neg hlong, slice_of_le (by omega), hslice, hpayload,
          Connection.processFrame_append]
        simp only [Option.bind_some]
        -- the handlers keep the input, so the frame can be moved out of it
        have hdrop : ∀ {d : Connection}, Buffers c.input d →
            dropInput d (frameHeaderLen + f.header.length)
                = some (d.dropInput (frameHeaderLen + f.header.length))
              ∧ StepSized c (.next (d.dropInput (frameHeaderLen + f.header.length))) := by
          intro d hd
          obtain ⟨hdropped, hsized⟩ := @dropInput_sized d (hd.sized h)
            (frameHeaderLen + f.header.length) (by rw [hd.input]; omega)
          refine ⟨hdropped, hsized, ?_⟩
          show (d.input.drop _).length < _
          rw [hd.input, List.length_drop]
          simp only [frameHeaderLen] at hlong ⊢
          omega
        obtain ⟨hframe, hbuf⟩ := processFrame_agrees h.buffers
          (show f.header.length ≤ f.payload.length from le_rfl)
        rw [hframe]
        simp only [Option.bind_some]
        rcases hres : c.processFrame f.header f.payload with ⟨ret, d⟩
        rw [hres] at hbuf
        -- the three ends of the iteration: accepted, a stream error, a connection error
        have hreset := resetStreamError_agrees hbuf f.header.streamId ret
        obtain ⟨hgoaway, hannounced⟩ := queueGoaway_agrees hbuf ret
        cases ret with
        | ok =>
            obtain ⟨hdropped, hsized⟩ := hdrop hbuf
            dsimp only
            rw [hdropped]
            exact ⟨rfl, hsized⟩
        | _ =>
            dsimp only
            split_ifs
            · -- the frame is dropped if its stream could be reset
              obtain ⟨hqueued, hbuf'⟩ := hreset
              rw [hqueued]
              simp only [Option.bind_some]
              rcases hres' : d.resetStreamError f.header.streamId _ with ⟨ret', d'⟩
              rw [hres'] at hbuf'
              obtain ⟨hdropped, hsized⟩ := hdrop hbuf'
              cases ret' with
              | ok =>
                  dsimp only
                  rw [hdropped]
                  exact ⟨rfl, hsized⟩
              | _ => exact ⟨rfl, hbuf'.sized h⟩
            · rw [hgoaway]
              exact ⟨rfl, hannounced.sized h⟩

/-- **The loop ends**: every iteration takes a frame off the input. -/
theorem feedLoop_sized {fuel : Nat} (h : Sized c) (hfuel : c.input.length ≤ fuel) :
    feedLoop (fuel + 1) c = some (c.feedLoop fuel) ∧ Sized (c.feedLoop fuel).2 := by
  induction fuel generalizing c with
  | zero =>
      have hshort : c.input.length < frameHeaderLen := Nat.lt_of_le_of_lt hfuel (by decide)
      rw [feedLoop, feedStep, if_pos hshort]
      exact ⟨rfl, h⟩
  | succ fuel ih =>
      obtain ⟨hstep, hsized⟩ := feedStep_sized h
      rw [feedLoop, Connection.feedLoop, hstep]
      simp only [Option.bind_eq_bind, Option.bind_some]
      rcases hres : c.feedStep with _ | ⟨ret, d⟩ | d
      · exact ⟨rfl, h⟩
      · rw [hres] at hsized
        exact ⟨rfl, hsized⟩
      · rw [hres] at hsized
        obtain ⟨hd, hlt⟩ := hsized
        exact ih hd (by omega)

theorem feedPreface_sized (h : Sized c) (hlen : clientPrefaceLen ≤ c.input.length) :
    feedPreface c = some c.feedPreface ∧ Sized c.feedPreface.2 := by
  rw [feedPreface, Connection.feedPreface, slice_of_le (by omega), List.drop_zero]
  simp only [Option.bind_eq_bind, Option.bind_some]
  by_cases hpre : c.input.take clientPrefaceLen ≠ clientPreface
  · obtain ⟨hgoaway, hannounced⟩ := queueGoaway_agrees h.buffers .protocolError
    rw [if_pos hpre, if_pos hpre, hgoaway]
    exact ⟨rfl, hannounced.sized h⟩
  · obtain ⟨hdropped, hsized⟩ := dropInput_sized h hlen
    rw [if_neg hpre, if_neg hpre, hdropped]
    simp only [Option.bind_some]
    have hseen : Sized { c.dropInput clientPrefaceLen with prefaceSeen := true } :=
      ⟨{ hsized.buffers with }, hsized.input_le⟩
    by_cases hsettings : (c.dropInput clientPrefaceLen).settingsSent = true
    · rw [if_pos hsettings, if_pos hsettings]
      exact ⟨rfl, hseen⟩
    · have hflagged : ∀ d, Buffers (c.dropInput clientPrefaceLen).input d →
          Agrees (c.dropInput clientPrefaceLen).input (pure (.ok, { d with settingsSent := true }))
            (.ok, { d with settingsSent := true }) := fun d hd => ⟨rfl, { hd with }⟩
      obtain ⟨heq, hbuf⟩ := (queueSettings_agrees hseen.buffers).andThen hflagged
      rw [if_neg hsettings, if_neg hsettings]
      exact ⟨heq, hbuf.sized hseen⟩

theorem feed_sized (h : Sized c) (data : List UInt8) :
    feed c data = some (c.feed data) ∧ Sized (c.feed data).2 := by
  have hin := h.input_le
  rw [feed, Connection.feed, sub_of_le hin]
  simp only [Option.bind_eq_bind, Option.bind_some]
  by_cases hbig : data.length > connInputCap - c.input.length
  · rw [if_pos hbig, if_pos hbig]
    exact ⟨rfl, h⟩
  · have hfit : (c.input ++ data).length ≤ connInputCap := by
      rw [List.length_append]
      omega
    -- the guard of `h2_connection_feed` leaves room for the copy
    have harrived : Sized { c with input := c.input ++ data } :=
      ⟨{ h.buffers with input := rfl }, hfit⟩
    rw [if_neg hbig, if_neg hbig, write_of_le (by omega)]
    simp only [Option.bind_some]
    by_cases hseen : c.prefaceSeen = true
    · rw [if_pos hseen, if_pos hseen]
      exact feedLoop_sized harrived le_rfl
    · rw [if_neg hseen, if_neg hseen]
      by_cases hshort : (c.input ++ data).length < clientPrefaceLen
      · rw [if_pos hshort, if_pos hshort]
        exact ⟨rfl, harrived⟩
      · obtain ⟨hpreface, hsized⟩ := feedPreface_sized harrived (not_lt.mp hshort)
        rw [if_neg hshort, if_neg hshort, andThen, hpreface]
        simp only [Option.bind_eq_bind, Option.bind_some]
        rcases hres : Connection.feedPreface { c with input := c.input ++ data } with ⟨ret, d⟩
        rw [hres] at hsized
        cases ret with
        | ok => exact feedLoop_sized hsized le_rfl
        | _ => exact ⟨rfl, hsized⟩

theorem consumeOutput_sized (h : Sized c) (sentLen : Nat) :
    consumeOutput c sentLen = some (c.consumeOutput sentLen)
      ∧ Sized (c.consumeOutput sentLen) := by
  have hlen : outputLen c = some c.pending.length := by
    rw [outputLen, Connection.pending, List.length_drop]
    by_cases hall : c.outputSent ≥ c.output.length
    · rw [if_pos hall, Nat.sub_eq_zero_of_le hall]
      rfl
    · rw [if_neg hall, sub_of_le (by omega)]
  rw [consumeOutput, Connection.consumeOutput, hlen]
  simp only [Option.bind_eq_bind, Option.bind_some]
  have hsent : Buffers c.input { c with outputSent := c.outputSent
      + if sentLen > c.pending.length then c.pending.length else sentLen } := { h.buffers with }
  obtain ⟨heq, hbuf⟩ := compactOutput_agrees hsent
  exact ⟨heq, hbuf.sized h⟩

end

/-! ## Runs -/

/-- One call of the interface, with the codes that `h2_connection_feed` has returned. -/
def call (r : Connection × List ErrorCode) : Op → Option (Connection × List ErrorCode)
  | .feed data => do
      let (ret, conn) ← feed r.1 data
      pure (conn, r.2 ++ [ret])
  | .consume sentLen => do
      let conn ← consumeOutput r.1 sentLen
      pure (conn, r.2)

/-- A run from the start. -/
def exec (ops : List Op) : Option (Connection × List ErrorCode) :=
  ops.foldlM call (Connection.init, [])

theorem sized_init : Sized Connection.init :=
  ⟨⟨rfl, Nat.zero_le _, Nat.zero_le _, fun _ => PathText.nil⟩, Nat.zero_le _⟩

/-- One call fails no check. -/
theorem call_sized {r : Run} (h : Sized r.conn) (op : Op) :
    call (r.conn, r.codes) op = some ((r.call op).conn, (r.call op).codes)
      ∧ Sized (r.call op).conn := by
  cases op with
  | feed data =>
      obtain ⟨heq, hsized⟩ := feed_sized h data
      rw [call, heq]
      exact ⟨rfl, hsized⟩
  | consume sentLen =>
      obtain ⟨heq, hsized⟩ := consumeOutput_sized h sentLen
      rw [call, heq]
      exact ⟨rfl, hsized⟩

/-- **Every run** fails no check. -/
theorem calls_sized {r : Run} (h : Sized r.conn) (ops : List Op) :
    ops.foldlM call (r.conn, r.codes) = some ((r.calls ops).conn, (r.calls ops).codes) := by
  induction ops generalizing r with
  | nil => rfl
  | cons op ops ih =>
      obtain ⟨heq, hsized⟩ := call_sized h op
      rw [List.foldlM_cons, heq]
      exact ih hsized

end C11Omo.Http2.Checked

namespace C11Omo.Http2

/-- **All input handling stays in bounds.** In every run, whatever bytes are fed and also after
errors, the code with every access, every capacity subtraction and every loop checked returns what
the code returns. The same holds of the parsers of all frame types, on the payload of any frame, and
of the decoder of header lists. -/
theorem input_in_bounds (ops : List Op) :
    Checked.exec ops = some ((exec ops).conn, (exec ops).codes)
      ∧ (∀ (f : Frame) (type : FrameType) (maxSettings : Nat),
        Checked.parsePayload maxSettings type f.header f.payload
          = some (parsePayload maxSettings type f.header f.payload))
      ∧ ∀ (wire : List UInt8) (fieldCap : Nat), Checked.decodeHeaders wire fieldCap
        = some ((decodeHeaders wire fieldCap).map (·.map Checked.terminated)) :=
  ⟨@Checked.calls_sized Run.start Checked.sized_init ops,
    fun _ type maxSettings => Checked.parsePayload_eq le_rfl maxSettings type,
    fun wire fieldCap => Checked.decodeHeaders_eq wire fieldCap⟩

end C11Omo.Http2
