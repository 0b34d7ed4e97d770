import C11Omo.Http2.Protocol

set_option autoImplicit false

/-! # What the connection queues

Each frame producer of `connection.c` queues the wire form of one frame, or fails because the
output buffer is too full (`queueWire_wire`). Under the structural invariant nothing else can go
wrong: the scratch buffers are large enough, and a response always has a path, a header block
that fits and a body below 320 bytes.
-/

namespace C11Omo.Http2

open C11Omo.Lib Connection

/-! ## The frames of the server -/

/-- The WINDOW_UPDATE frame for a stream, or for the connection (`0`). -/
def windowUpdateFrame (streamId increment : Nat) : Frame :=
  Frame.of FrameType.windowUpdate.toByte 0 streamId (writeU32 increment)

def rstStreamFrame (streamId : Nat) (errorCode : ErrorCode) : Frame :=
  Frame.of FrameType.rstStream.toByte 0 streamId (writeU32 errorCode.toNat)

def pingAckFrame (opaqueData : List UInt8) : Frame :=
  Frame.of FrameType.ping.toByte flagAck 0 opaqueData

def settingsAckFrame : Frame := Frame.of FrameType.settings.toByte flagAck 0 []

/-- The first frame of the server: SETTINGS with ENABLE_PUSH off. -/
def serverSettingsFrame : Frame :=
  Frame.of FrameType.settings.toByte 0 0 (writeU16 settingsEnablePush ++ writeU32 0)

def goawayFrame (lastStreamId : Nat) (errorCode : ErrorCode) : Frame :=
  Frame.of FrameType.goaway.toByte 0 0
    (writeU32 (lastStreamId &&& 0x7fffffff) ++ writeU32 errorCode.toNat)

theorem maxFrameSizeLimit_eq : maxFrameSizeLimit = 16777215 := rfl

theorem encodeWindowUpdate_eq {streamId increment : Nat} (h0 : increment ≠ 0)
    (h : increment < 2 ^ 31) :
    encodeWindowUpdate (frameHeaderLen + 4) streamId increment
      = some (windowUpdateFrame streamId increment).wire := by
  have hbit : increment &&& 0x80000000 = 0 := by
    have : increment &&& 2 ^ 31 = 0 := by
      rw [Nat.and_two_pow, Nat.testBit_lt_two_pow h]
      rfl
    exact this
  have hcond : ¬ (increment = 0 ∨ increment &&& 0x80000000 ≠ 0) := by
    rw [hbit]
    simp [h0]
  rw [encodeWindowUpdate, if_neg hcond]
  exact encodeRaw_eq_wire (by simp [maxFrameSizeLimit]) (by simp) _ _ _

theorem encodeRstStream_eq {streamId : Nat} (h0 : streamId ≠ 0) (errorCode : ErrorCode) :
    encodeRstStream (frameHeaderLen + 4) streamId errorCode.toNat
      = some (rstStreamFrame streamId errorCode).wire := by
  rw [encodeRstStream, if_neg h0]
  exact encodeRaw_eq_wire (by simp [maxFrameSizeLimit]) (by simp) _ _ _

theorem encodePing_eq {opaqueData : List UInt8} (h : opaqueData.length ≤ 8) :
    encodePing (frameHeaderLen + 8) flagAck opaqueData = some (pingAckFrame opaqueData).wire := by
  refine encodeRaw_eq_wire ?_ (by omega) _ _ _
  simp only [maxFrameSizeLimit]
  omega

theorem encodeSettings_ack_eq :
    encodeSettings frameHeaderLen flagAck [] = some settingsAckFrame.wire := by
  rw [encodeSettings, if_pos (by decide), if_pos List.length_nil]
  exact encodeRaw_eq_wire (Nat.zero_le _) (Nat.le_refl _) _ _ _

theorem encodeSettings_server_eq :
    encodeSettings (frameHeaderLen + 6) 0 [{ id := settingsEnablePush, value := 0 }]
      = some serverSettingsFrame.wire := by
  rw [encodeSettings, if_neg (by decide), if_neg (by decide)]
  show encodeRaw _ .settings 0 0 (writeU16 settingsEnablePush ++ writeU32 0) = _
  exact encodeRaw_eq_wire (by decide) (by decide) _ _ _

theorem encodeGoaway_eq (lastStreamId : Nat) (errorCode : ErrorCode) :
    encodeGoaway (frameHeaderLen + 8) lastStreamId errorCode.toNat []
      = some (goawayFrame lastStreamId errorCode).wire := by
  show encodeRaw (frameHeaderLen + 8) .goaway 0 0
    (writeU32 (lastStreamId &&& 0x7fffffff) ++ writeU32 errorCode.toNat) = _
  exact encodeRaw_eq_wire (by simp [maxFrameSizeLimit]) (by simp) _ _ _

/-- The frames of these types are control frames. -/
theorem control_of {t : FrameType} (ht : t = .rstStream ∨ t = .settings ∨ t = .ping
    ∨ t = .windowUpdate) (flags : UInt8) (streamId : Nat) (payload : List UInt8) :
    (Frame.of t.toByte flags streamId payload).Control := by
  rw [Frame.Control, Frame.of_type]
  rcases ht with rfl | rfl | rfl | rfl <;> decide

/-- No frame but RST_STREAM has its type. -/
theorem ne_rstStream_of {t : FrameType} (ht : t ≠ .rstStream) (flags : UInt8) (streamId : Nat)
    (payload : List UInt8) :
    (Frame.of t.toByte flags streamId payload).type ≠ FrameType.rstStream.toByte := by
  rw [Frame.of_type]
  cases t <;> first | exact absurd rfl ht | decide

/-! ## The queue -/

namespace Connection

instance (c : Connection) (f : Frame) : Decidable (c.Fits f) :=
  inferInstanceAs (Decidable (_ ≤ _))

theorem compactOutput_eq (c : Connection) :
    c.compactOutput = { c with output := c.pending, outputSent := 0 } := by
  unfold compactOutput pending
  by_cases h0 : c.outputSent = 0
  · have hself : c = { c with outputSent := 0 } := by rw [← h0]
    rw [if_pos h0, h0, List.drop_zero]
    exact hself
  · rw [if_neg h0]
    by_cases hall : c.outputSent ≥ c.output.length
    · rw [if_pos hall, List.drop_eq_nil_of_le hall]
    · rw [if_neg hall]

theorem queueBytes_eq (c : Connection) (data : List UInt8) : c.queueBytes data
    = if data.length > connOutputCap - c.pending.length then
        (.internalError, { c with output := c.pending, outputSent := 0 })
      else (.ok, { c with output := c.pending ++ data, outputSent := 0 }) := by
  rw [queueBytes, compactOutput_eq]

/-- The wire form of a frame is queued whole if it fits, and not at all otherwise. -/
theorem queueWire_wire {c : Connection} (hc : Inv c) (f : Frame) :
    c.queueWire (some f.wire) = if c.Fits f then (.ok, c.push f) else (.internalError, c) := by
  have hle := hc.output_le
  rw [queueWire, queueBytes, compactOutput, if_pos hc.output_sent]
  by_cases hfit : c.Fits f
  · have hlen : ¬ f.wire.length > connOutputCap - c.output.length := by
      unfold Fits at hfit
      omega
    rw [if_pos hfit]
    simp only [if_neg hlen]
    rfl
  · have hlen : f.wire.length > connOutputCap - c.output.length := by
      unfold Fits at hfit
      omega
    rw [if_neg hfit]
    simp only [if_pos hlen]

/-- What `queue_goaway` does: nothing when a GOAWAY was sent before, and otherwise it sets the
flags and queues the frame if it fits. -/
theorem queueGoaway_eq {c : Connection} (hc : Inv c) (errorCode : ErrorCode) :
    c.queueGoaway errorCode
      = if c.goawaySent then (.ok, c)
        else if c.Fits (goawayFrame c.lastStreamId errorCode) then
          (.ok, { c with goawaySent := true, goawayError := errorCode.toNat }.push
            (goawayFrame c.lastStreamId errorCode))
        else (.internalError, { c with goawaySent := true, goawayError := errorCode.toNat }) := by
  have hc' : Inv { c with goawaySent := true, goawayError := errorCode.toNat } := { hc with }
  rw [queueGoaway, encodeGoaway_eq]
  split
  · rfl
  · exact queueWire_wire hc' _

end Connection

/-! ## The header block of a response -/

theorem encodeInteger_short {cap n : Nat} (hcap : 0 < cap) (hn : n < 127) :
    encodeInteger cap 7 0x00 n = some [UInt8.ofNat n] := by
  have hcond : ¬ (cap = 0 ∨ 7 = 0 ∨ 7 > 8) := by omega
  have hlt : n < 1 <<< 7 - 1 := hn
  rw [encodeInteger, if_neg hcond]
  simp only [if_pos hlt, Nat.zero_or]

theorem encodeString_short {cap : Nat} {text : List UInt8} (htext : (0 : UInt8) ∉ text)
    (hlen : text.length < 127) (hcap : text.length < cap) :
    encodeString cap text = some (UInt8.ofNat text.length :: text) := by
  have hbig : ¬ text.length > 0xffffffff := by omega
  have hroom : ¬ [UInt8.ofNat text.length].length + text.length > cap := by
    rw [List.length_singleton]
    omega
  rw [encodeString, cstr_eq_self htext]
  simp only [if_neg hbig, encodeInteger_short (Nat.zero_lt_of_lt hcap) hlen, if_neg hroom]
  rfl

theorem encodeLiteralNewName_short {cap : Nat} {name value : List UInt8}
    (hname : (0 : UInt8) ∉ name ∧ name.length < 127)
    (hvalue : (0 : UInt8) ∉ value ∧ value.length < 127)
    (hcap : name.length + value.length + 3 ≤ cap) :
    encodeLiteralNewName cap name value = some (literalField name value) := by
  rw [encodeLiteralNewName, if_neg (by omega), encodeString_short hname.1 hname.2 (by omega)]
  simp only [List.length_cons]
  rw [encodeString_short hvalue.1 hvalue.2 (by omega)]
  rfl

theorem literalField_length (name value : List UInt8) :
    (literalField name value).length = name.length + value.length + 3 := by
  simp [literalField]
  omega

/-- Decimal digits are not zero bytes. -/
theorem zero_notMem_decimal (n : Nat) : (0 : UInt8) ∉ decimal n := by
  intro h
  obtain ⟨c, hc, h0⟩ := List.mem_map.mp h
  have hd : c.isDigit = true := Nat.isDigit_of_mem_toDigits (by omega) (by omega) hc
  rw [Char.isDigit, Bool.and_eq_true, decide_eq_true_eq, decide_eq_true_eq] at hd
  have hlo : 48 ≤ c.toNat := UInt32.le_iff_toNat_le.mp hd.1
  have hhi : c.toNat ≤ 57 := UInt32.le_iff_toNat_le.mp hd.2
  have h0' : c.toNat % 2 ^ 8 = 0 := by
    rw [← UInt8.toNat_ofNat', h0]
    rfl
  omega

theorem decimal_length_le {n : Nat} (h : n < 1000) : (decimal n).length ≤ 3 := by
  rw [decimal, List.length_map]
  exact Nat.toDigits_length 10 n 3 (by omega) (by omega)

/-- The scratch buffer of 512 bytes is large enough for the response header block. -/
theorem responseHeaderBlock_eq {n : Nat} (h : n < 1000) :
    responseHeaderBlock (decimal n) = some (responseBlock n) := by
  have hlen := decimal_length_le h
  have hidx : encodeIndexed 512 8 = some [0x88] := by decide
  have htype : ∀ cap, 100 ≤ cap → encodeLiteralNewName cap (ascii "content-type")
      (ascii "text/plain") = some (literalField (ascii "content-type") (ascii "text/plain")) := by
    intro cap hcap
    exact encodeLiteralNewName_short (by decide) (by decide)
      (Nat.le_trans (by decide : _ ≤ 100) hcap)
  have hserver : ∀ cap, 100 ≤ cap → encodeLiteralNewName cap (ascii "server") (ascii "c11-h2")
      = some (literalField (ascii "server") (ascii "c11-h2")) := by
    intro cap hcap
    exact encodeLiteralNewName_short (by decide) (by decide)
      (Nat.le_trans (by decide : _ ≤ 100) hcap)
  have hlength : ∀ cap, 100 ≤ cap → encodeLiteralNewName cap (ascii "content-length") (decimal n)
      = some (literalField (ascii "content-length") (decimal n)) := by
    intro cap hcap
    have hname : (ascii "content-length").length = 14 := by decide
    exact encodeLiteralNewName_short (by decide) ⟨zero_notMem_decimal n, by omega⟩ (by omega)
  have hl1 : (literalField (ascii "content-type") (ascii "text/plain")).length = 25 := by decide
  have hl2 : (literalField (ascii "content-length") (decimal n)).length ≤ 20 := by
    have hname : (ascii "content-length").length = 14 := by decide
    rw [literalField_length, hname]
    omega
  -- 1 + 25 + 20 bytes before the last field: at least 100 are left for each
  rw [responseHeaderBlock, hidx]
  simp only [Option.bind_eq_bind, Option.bind_some, List.length_append, List.length_singleton]
  rw [htype _ (by omega)]
  simp only [Option.bind_some]
  rw [hlength _ (by omega)]
  simp only [Option.bind_some]
  rw [hserver _ (by omega)]
  rfl

theorem responseBlock_length_le {n : Nat} (h : n < 1000) : (responseBlock n).length ≤ 61 := by
  have hlen := decimal_length_le h
  have h1 : (literalField (ascii "content-type") (ascii "text/plain")).length = 25 := by decide
  have h2 : (ascii "content-length").length = 14 := by decide
  have h3 : (literalField (ascii "server") (ascii "c11-h2")).length = 15 := by decide
  rw [responseBlock, List.length_append, List.length_append, List.length_cons, h1, h3,
    literalField_length, h2]
  omega

/-! ## Responses -/

theorem responseBody_length (path : List UInt8) : (responseBody path).length = path.length + 1 := by
  simp [responseBody]

theorem responseBody_length_le {c : Connection} (hc : Inv c) (pos : Fin connMaxStreams) :
    (responseBody (c.streams pos).path).length ≤ 256 := by
  have := (hc.slot pos).path_length
  rw [responseBody_length]
  omega

theorem Inv.id_lt {c : Connection} (hc : Inv c) (pos : Fin connMaxStreams) :
    (c.streams pos).id < 2 ^ 31 := Nat.lt_of_le_of_lt (hc.id_le pos) hc.last_lt

/-- The frame length of a response body. -/
theorem responseData_payload {body : List UInt8} (h : body.length ≤ 1024) (streamId : Nat) :
    (responseData streamId body).payload = body :=
  Frame.of_payload (by simp only [maxFrameSizeLimit]; omega) _ _ _

theorem responseHeaders_payload {n : Nat} (h : n < 1000) (streamId : Nat) :
    (responseHeaders streamId n).payload = responseBlock n := by
  have := responseBlock_length_le h
  exact Frame.of_payload (by simp only [maxFrameSizeLimit]; omega) _ _ _

theorem encodeData_eq {streamId : Nat} (h0 : streamId ≠ 0) {body : List UInt8}
    (h : body.length ≤ 1024) :
    encodeData (frameHeaderLen + 1024) streamId flagEndStream body
      = some (responseData streamId body).wire := by
  have hcond : ¬ (streamId = 0 ∨ hasFlag flagEndStream flagPadded = true) := by
    rintro (h | h)
    · exact h0 h
    · exact absurd h (by decide)
  rw [encodeData, if_neg hcond]
  refine encodeRaw_eq_wire ?_ (by omega) _ _ _
  simp only [maxFrameSizeLimit]
  omega

theorem encodeHeaders_eq {streamId : Nat} (h0 : streamId ≠ 0) {n : Nat} (h : n < 1000) :
    encodeHeaders (frameHeaderLen + 1024) streamId flagEndHeaders (responseBlock n)
      = some (responseHeaders streamId n).wire := by
  have hlen := responseBlock_length_le h
  have hcond : ¬ (streamId = 0 ∨ hasFlag flagEndHeaders (flagPadded ||| flagPriority) = true) := by
    rintro (h | h)
    · exact h0 h
    · exact absurd h (by decide)
  rw [encodeHeaders, if_neg hcond]
  refine encodeRaw_eq_wire ?_ (by omega) _ _ _
  simp only [maxFrameSizeLimit]
  omega

namespace Connection

/-- One of the two send windows does not cover the body of the response at `pos`. -/
def Blocked (c : Connection) (pos : Fin connMaxStreams) : Prop :=
  c.connSendWindow < (responseBody (c.streams pos).path).length
    ∨ (c.streams pos).sendWindow < (responseBody (c.streams pos).path).length

instance (c : Connection) (pos : Fin connMaxStreams) : Decidable (c.Blocked pos) :=
  inferInstanceAs (Decidable (_ ∨ _))

/-- The HEADERS frame of the response at `pos`. -/
def headersFrame (c : Connection) (pos : Fin connMaxStreams) : Frame :=
  responseHeaders (c.streams pos).id ((c.streams pos).path.length + 1)

/-- The DATA frame of the response at `pos`. -/
def dataFrame (c : Connection) (pos : Fin connMaxStreams) : Frame :=
  responseData (c.streams pos).id (responseBody (c.streams pos).path)

variable {c : Connection} {pos : Fin connMaxStreams}

/-- The three ways to go for a response body: put off, sent, or no room in the output. -/
theorem queueDeferredData_eq (hc : Inv c) (hcan : (c.streams pos).CanSend) :
    c.queueDeferredData pos (responseBody (c.streams pos).path)
      = if c.Blocked pos then
          (.ok, c.setStream pos { c.streams pos with responseBodyDeferred := true })
        else if c.Fits (c.dataFrame pos) then
          (.ok, (c.push (c.dataFrame pos)).answered pos (responseBody (c.streams pos).path).length)
        else (.internalError, c) := by
  have hlen := responseBody_length_le hc pos
  rw [queueDeferredData, encodeData_eq hcan.1 (by omega)]
  by_cases hb : c.Blocked pos
  · rw [if_pos hb]
    exact if_pos hb
  · rw [if_neg hb, queueWire_wire hc]
    by_cases hfit : c.Fits (c.dataFrame pos)
    · have hfit' := hfit
      rw [dataFrame] at hfit'
      rw [if_pos hfit, if_pos hfit']
      refine (if_neg hb).trans ?_
      -- sending END_STREAM succeeds on a stream the server may send on
      rcases hcan.2 with hst | hst
      · simp [answered, dataFrame, push, Stream.sendEndStream, hst]
      · simp [answered, dataFrame, push, Stream.sendEndStream, hst]
    · have hfit' := hfit
      rw [dataFrame] at hfit'
      rw [if_neg hfit, if_neg hfit']
      exact if_neg hb

theorem queueResponseHeaders_eq (hc : Inv c) (h0 : (c.streams pos).id ≠ 0) :
    c.queueResponseHeaders pos (decimal (responseBody (c.streams pos).path).length)
      = if c.Fits (c.headersFrame pos) then
          (.ok, (c.push (c.headersFrame pos)).setStream pos
            { c.streams pos with responseHeadersSent := true })
        else (.internalError, c) := by
  have hlen := responseBody_length_le hc pos
  rw [responseBody_length] at hlen ⊢
  rw [queueResponseHeaders, responseHeaderBlock_eq (by omega)]
  simp only
  rw [encodeHeaders_eq h0 (by omega), queueWire_wire hc]
  by_cases hfit : c.Fits (c.headersFrame pos)
  · have hfit' := hfit
    rw [headersFrame] at hfit'
    rw [if_pos hfit, if_pos hfit']
    rfl
  · have hfit' := hfit
    rw [headersFrame] at hfit'
    rw [if_neg hfit, if_neg hfit']

/-- With a path read, `queue_response` queues the headers unless they are out, and then the
body. -/
theorem queueResponse_eq (hc : Inv c) (hbody : (c.streams pos).responseSent = false)
    (hpath : (c.streams pos).path ≠ []) :
    c.queueResponse pos
      = andThen
          (if (c.streams pos).responseHeadersSent then (.ok, c)
            else c.queueResponseHeaders pos (decimal (responseBody (c.streams pos).path).length))
          fun c' => c'.queueDeferredData pos (responseBody (c.streams pos).path) := by
  have hlen := responseBody_length_le hc pos
  have hdec := decimal_length_le (show (responseBody (c.streams pos).path).length < 1000 by omega)
  rw [queueResponse, if_neg (by simp [hbody])]
  simp only [if_neg hpath]
  rw [if_neg (by omega), if_neg (by omega)]

/-- A response that was put off: only its body is missing. -/
theorem queueResponse_deferred (hc : Inv c) (hd : (c.streams pos).responseBodyDeferred = true) :
    c.queueResponse pos = c.queueDeferredData pos (responseBody (c.streams pos).path) := by
  obtain ⟨-, hhead, hbody, hpath⟩ := (hc.slot pos).deferred hd
  rw [queueResponse_eq hc hbody hpath, if_pos hhead]
  rfl

/-! ## Receive windows -/

/-- `refresh_recv_windows` for the connection: at half the window or below, the window is
filled up and the peer is told. -/
theorem refreshConnRecvWindow_eq (hc : Inv c) :
    c.refreshConnRecvWindow
      = if c.connRecvWindow ≤ 32767 then
          if c.Fits (windowUpdateFrame 0 (65535 - c.connRecvWindow).toNat) then
            (.ok, { c with connRecvWindow := 65535 }.push
              (windowUpdateFrame 0 (65535 - c.connRecvWindow).toNat))
          else (.internalError, { c with connRecvWindow := 65535 })
        else (.ok, c) := by
  have hw := hc.conn_recv
  rw [refreshConnRecvWindow]
  by_cases hlow : c.connRecvWindow ≤ 32767
  · have hinc : toUInt32 (defaultWindowSize - c.connRecvWindow)
        = (65535 - c.connRecvWindow).toNat := by
      have h1 : 0 ≤ defaultWindowSize - c.connRecvWindow := by simp only [defaultWindowSize]; omega
      have h2 := toUInt32_of_nonneg h1 (by simp only [defaultWindowSize]; omega)
      simp only [defaultWindowSize] at h2 ⊢
      omega
    -- the casts between `int32_t` and `uint32_t` change nothing in this range
    have hsum : c.connRecvWindow + toInt32 (65535 - c.connRecvWindow).toNat = 65535 := by
      rw [toInt32_of_le (by omega)]
      omega
    have hfull : Inv { c with connRecvWindow := 65535 } :=
      { hc with conn_recv := ⟨by norm_num, le_refl _⟩ }
    rw [if_pos hlow, if_pos (by omega), hinc]
    simp only [hsum, queueWindowUpdate]
    rw [encodeWindowUpdate_eq (by omega) (by omega), queueWire_wire hfull]
    by_cases hfit : c.Fits (windowUpdateFrame 0 (65535 - c.connRecvWindow).toNat)
    · rw [if_pos hfit]
      simp only [if_pos (show Fits { c with connRecvWindow := 65535 } _ from hfit)]
    · rw [if_neg hfit]
      simp only [if_neg (show ¬ Fits { c with connRecvWindow := 65535 } _ from hfit)]
  · rw [if_neg hlow, if_neg (by omega)]

/-- The same for a stream. -/
theorem refreshStreamRecvWindow_eq (hc : Inv c) :
    c.refreshStreamRecvWindow pos
      = if (c.streams pos).recvWindow ≤ 32767 then
          if c.Fits (windowUpdateFrame (c.streams pos).id
              (65535 - (c.streams pos).recvWindow).toNat) then
            (.ok, (c.setStream pos { c.streams pos with recvWindow := 65535 }).push
              (windowUpdateFrame (c.streams pos).id (65535 - (c.streams pos).recvWindow).toNat))
          else (.internalError, c.setStream pos { c.streams pos with recvWindow := 65535 })
        else (.ok, c) := by
  have hw := (hc.slot pos).recv
  rw [refreshStreamRecvWindow]
  by_cases hlow : (c.streams pos).recvWindow ≤ 32767
  · have hinc : toUInt32 (defaultWindowSize - (c.streams pos).recvWindow)
        = (65535 - (c.streams pos).recvWindow).toNat := by
      have h1 : 0 ≤ defaultWindowSize - (c.streams pos).recvWindow := by
        simp only [defaultWindowSize]; omega
      have h2 := toUInt32_of_nonneg h1 (by simp only [defaultWindowSize]; omega)
      simp only [defaultWindowSize] at h2 ⊢
      omega
    have hsum : (c.streams pos).recvWindow + toInt32 (65535 - (c.streams pos).recvWindow).toNat
        = 65535 := by
      rw [toInt32_of_le (by omega)]
      omega
    have hfull : Inv (c.setStream pos { c.streams pos with recvWindow := 65535 }) :=
      hc.setStream rfl { hc.slot pos with recv := ⟨by norm_num, le_refl _⟩ }
    simp only
    rw [if_pos hlow, if_pos (by omega), hinc]
    simp only [hsum, queueWindowUpdate]
    rw [encodeWindowUpdate_eq (by omega) (by omega), queueWire_wire hfull]
    by_cases hfit : c.Fits (windowUpdateFrame (c.streams pos).id
        (65535 - (c.streams pos).recvWindow).toNat)
    · rw [if_pos hfit]
      simp only [if_pos (show Fits (c.setStream pos { c.streams pos with recvWindow := 65535 }) _
        from hfit)]
    · rw [if_neg hfit]
      simp only [if_neg (show ¬ Fits (c.setStream pos { c.streams pos with recvWindow := 65535 }) _
        from hfit)]
  · simp only
    rw [if_neg hlow, if_neg (by omega)]

end Connection

end C11Omo.Http2
