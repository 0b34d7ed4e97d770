import C11Omo.Http2.Script
import C11Omo.Lib.Edits

set_option autoImplicit false

/-! # What HTTP/2 says to ignore

Reserved bits, flags that are not defined for the type of the frame, the content of padding; and
whole frames: those of an unknown type, PRIORITY, GOAWAY and acknowledgements. None of this can be
seen in the output of the server or in its state.

The bytes of one frame may be changed (`FrameChange`), and frames that are `Inert` inserted or
deleted. A changed frame matches the frame it was (`Frame.Matches`): every parser reads the same from
both. So the two are handled alike, but for the flags of HEADERS, which are saved as they are
(`significant`). The rest is the rule for edited inputs.
-/

namespace C11Omo.Http2

open C11Omo.Lib Connection

/-! ## Changes that are ignored -/

/-- The flags that are defined for a frame type. -/
def FrameType.definedFlags : FrameType → UInt8
  | .data => flagEndStream ||| flagPadded
  | .headers => flagEndStream ||| flagEndHeaders ||| flagPadded ||| flagPriority
  | .settings => flagAck
  | .pushPromise => flagEndHeaders ||| flagPadded
  | .ping => flagAck
  | .continuation => flagEndHeaders
  | .priority | .rstStream | .goaway | .windowUpdate => 0

/-- The frame types that may have padding. -/
def FrameType.MayPad (t : FrameType) : Prop := t = .data ∨ t = .headers ∨ t = .pushPromise

/-- A change of the bytes of a frame that the receiver has to ignore. -/
inductive FrameChange (bytes : List UInt8) : List UInt8 → Prop
  /-- The reserved bit of the stream id. -/
  | reservedBit : FrameChange bytes (bytes.modify 5 (· ^^^ 0x80))
  /-- The reserved bit of the increment of a WINDOW_UPDATE. -/
  | incrementBit (htype : bytes.getD 3 0 = FrameType.windowUpdate.toByte) :
      FrameChange bytes (bytes.modify 9 (· ^^^ 0x80))
  /-- Flags that are not defined for the type of the frame. -/
  | flagBits {t : FrameType} (htype : bytes.getD 3 0 = t.toByte) {bits : UInt8}
      (hbits : bits &&& t.definedFlags = 0) : FrameChange bytes (bytes.modify 4 (· ^^^ bits))
  /-- The padding, which is at the end of a frame with a padding length. -/
  | padding {t : FrameType} (htype : bytes.getD 3 0 = t.toByte) (hpad : t.MayPad)
      (hflag : hasFlag (bytes.getD 4 0) flagPadded = true)
      (hroom : byteAt bytes 9 + (frameHeaderLen + 1) ≤ bytes.length) {pad : List UInt8}
      (hlen : pad.length = byteAt bytes 9) :
      FrameChange bytes (bytes.take (bytes.length - byteAt bytes 9) ++ pad)

/-- The frames that the receiver has to ignore: a frame of an unknown type, and if they are valid,
PRIORITY without a self-dependency, GOAWAY and the acknowledgements of SETTINGS and PING. -/
def Frame.Ignored (f : Frame) : Prop :=
  match FrameType.ofByte? f.type with
  | none => True
  | some .priority => validatePayload f.header = .ok ∧ readU31 f.payload ≠ f.streamId
  | some .goaway => validatePayload f.header = .ok
  | some .settings => validatePayload f.header = .ok ∧ hasFlag f.flags flagAck = true
  | some .ping => validatePayload f.header = .ok ∧ hasFlag f.flags flagAck = true
  | some _ => False

/-- The bytes of a frame that leaves no trace in a connection: it is to be ignored, it is not too
long, and no header block is open. -/
def Inert (c : Connection) (bytes : List UInt8) : Prop :=
  ∃ f, cutFrame bytes = some (f, []) ∧ f.Ignored ∧ f.payload.length ≤ c.maxFrameSize
    ∧ c.headerBlockOpen = false

/-- An item that has been changed. -/
inductive Item.Changed : Item → Item → Prop
  | preface (bytes : List UInt8) : Changed (.preface bytes) (.preface bytes)
  | frame {bytes bytes' : List UInt8} {f : Frame} (hcut : cutFrame bytes = some (f, []))
      (h : Relation.ReflTransGen FrameChange bytes bytes') : Changed (.frame bytes) (.frame bytes')
  | consume (sentLen : Nat) : Changed (.consume sentLen) (.consume sentLen)

/-- An item that leaves no trace. -/
def Item.Inert (c : Connection) : Item → Prop
  | .frame bytes => C11Omo.Http2.Inert c bytes
  | _ => False

/-- The drained connection reads an item. -/
def Drained.read (d : Drained) : Item → Drained
  | .frame bytes => (framesOf bytes).foldl Drained.frame d
  | _ => d

/-- Two streams that differ in nothing but what is to be ignored. -/
def Ignored (stream stream' : List UInt8) : Prop :=
  Edits Drained.read Item.Changed (fun d => Item.Inert d.conn) .start (items stream) (items stream')

/-- Two runs that differ in nothing but the chunks and what is to be ignored: the output is consumed
between the same frames. -/
def Aligned (ops ops' : List Op) : Prop :=
  Edits Played.next Item.Changed (fun o => Item.Inert o.conn) .start (script [] ops)
    (script [] ops')

/-! ## Flags -/

theorem hasFlag_eq_of_defined {t : FrameType} {flags flags' mask : UInt8}
    (h : flags' &&& t.definedFlags = flags &&& t.definedFlags) (hmask : t.definedFlags &&& mask = mask) :
    hasFlag flags' mask = hasFlag flags mask := by
  unfold hasFlag
  rw [← hmask, ← UInt8.and_assoc, ← UInt8.and_assoc, h]

theorem xor_and_of_and_eq_zero {flags bits mask : UInt8} (h : bits &&& mask = 0) :
    (flags ^^^ bits) &&& mask = flags &&& mask := by
  have hdistrib : (flags ^^^ bits) &&& mask = (flags &&& mask) ^^^ (bits &&& mask) := by
    apply UInt8.toBitVec_inj.mp
    ext i hi
    simp [Bool.and_xor_distrib_right]
  rw [hdistrib, h, UInt8.xor_zero]

/-! ## Frames that match -/

/-- Two frames from which all parsers read the same. -/
structure Frame.Matches (f f' : Frame) : Prop where
  type : f'.type = f.type
  streamId : f'.streamId = f.streamId
  length : f'.payload.length = f.payload.length
  flags : ∀ t : FrameType, f.type = t.toByte →
    f'.flags &&& t.definedFlags = f.flags &&& t.definedFlags
  valid : validatePayload f'.header = validatePayload f.header
  data : parseData f'.header f'.payload = parseData f.header f.payload
  headers : parseHeaders f'.header f'.payload = parseHeaders f.header f.payload
  windowUpdate : parseWindowUpdate f'.header f'.payload = parseWindowUpdate f.header f.payload
  payload : ∀ t : FrameType, f.type = t.toByte → ¬ t.MayPad → t ≠ .windowUpdate →
    f'.payload = f.payload

namespace Frame

variable {f f' : Frame}

theorem Matches.refl (f : Frame) : f.Matches f :=
  ⟨rfl, rfl, rfl, fun _ _ => rfl, rfl, rfl, rfl, rfl, fun _ _ _ _ => rfl⟩

theorem Matches.hasFlag (h : f.Matches f') {t : FrameType} (ht : f.type = t.toByte) {mask : UInt8}
    (hmask : t.definedFlags &&& mask = mask) :
    Http2.hasFlag f'.flags mask = Http2.hasFlag f.flags mask :=
  hasFlag_eq_of_defined (h.flags t ht) hmask

end Frame

/-! ### Other flags -/

section Flags

variable {header : FrameHeader} {flags' : UInt8}
  (hflags : ∀ t : FrameType, header.type = t.toByte →
    flags' &&& t.definedFlags = header.flags &&& t.definedFlags)
include hflags

theorem validatePayload_flags :
    validatePayload { header with flags := flags' } = validatePayload header := by
  unfold validatePayload
  rcases ht : FrameType.ofByte? header.type with _ | t
  · rfl
  · have hsame := hflags t (FrameType.ofByte?_eq_some ht)
    cases t with
    | settings =>
        have hack : hasFlag flags' flagAck = hasFlag header.flags flagAck :=
          hasFlag_eq_of_defined hsame (by decide)
        simp only [hack]
    | pushPromise =>
        have hpad : hasFlag flags' flagPadded = hasFlag header.flags flagPadded :=
          hasFlag_eq_of_defined hsame (by decide)
        simp only [hpad]
    | _ => rfl

theorem parseData_flags (payload : List UInt8) :
    parseData { header with flags := flags' } payload = parseData header payload := by
  unfold parseData
  rw [validatePayload_flags hflags]
  by_cases ht : header.type = FrameType.data.toByte
  · have hpad : hasFlag flags' flagPadded = hasFlag header.flags flagPadded :=
      hasFlag_eq_of_defined (hflags .data ht) (by decide)
    simp only [hpad]
  · simp only [ne_eq, ht, not_false_eq_true, true_or, if_true]

theorem parseHeaders_flags (payload : List UInt8) :
    parseHeaders { header with flags := flags' } payload = parseHeaders header payload := by
  unfold parseHeaders
  rw [validatePayload_flags hflags]
  by_cases ht : header.type = FrameType.headers.toByte
  · have hpad : hasFlag flags' flagPadded = hasFlag header.flags flagPadded :=
      hasFlag_eq_of_defined (hflags .headers ht) (by decide)
    have hpriority : hasFlag flags' flagPriority = hasFlag header.flags flagPriority :=
      hasFlag_eq_of_defined (hflags .headers ht) (by decide)
    simp only [hpad, parseHeadersBlock, hpriority]
  · simp only [ne_eq, ht, not_false_eq_true, true_or, if_true]

theorem parseWindowUpdate_flags (payload : List UInt8) :
    parseWindowUpdate { header with flags := flags' } payload = parseWindowUpdate header payload := by
  unfold parseWindowUpdate
  rw [validatePayload_flags hflags]

end Flags

/-- A frame with other flags, of those that are not defined for its type. -/
theorem Frame.matches_flags {f f' : Frame} (htype : f'.type = f.type)
    (hid : f'.streamId = f.streamId) (hpayload : f'.payload = f.payload)
    (hflags : ∀ t : FrameType, f.type = t.toByte →
      f'.flags &&& t.definedFlags = f.flags &&& t.definedFlags) : f.Matches f' := by
  have hheader : f'.header = { f.header with flags := f'.flags } := by
    rw [Frame.header, Frame.header, htype, hid, hpayload]
  have hdefined : ∀ t : FrameType, f.header.type = t.toByte →
      f'.flags &&& t.definedFlags = f.header.flags &&& t.definedFlags := hflags
  refine ⟨htype, hid, by rw [hpayload], hflags, ?_, ?_, ?_, ?_, fun _ _ _ _ => hpayload⟩
  · rw [hheader]
    exact validatePayload_flags hdefined
  · rw [hheader, hpayload]
    exact parseData_flags hdefined _
  · rw [hheader, hpayload]
    exact parseHeaders_flags hdefined _
  · rw [hheader, hpayload]
    exact parseWindowUpdate_flags hdefined _

/-! ### Other padding -/

section Padding

variable {header : FrameHeader} {front pad pad' : List UInt8}
  (hflag : hasFlag header.flags flagPadded = true) (hfront : 1 ≤ front.length)
  (hpad : byteAt front 0 = pad.length) (hlen : front.length + pad.length = header.length)
include hflag hfront hpad hlen

/-- Padding is not read. -/
theorem parseData_padding : parseData header (front ++ pad) = parseData header front := by
  have hbyte : byteAt (front ++ pad) 0 = byteAt front 0 := byteAt_append_left (by omega) pad
  unfold parseData
  simp only [hflag, if_true, hbyte]
  rw [slice_append (by omega)]

theorem parseHeaders_padding : parseHeaders header (front ++ pad) = parseHeaders header front := by
  have hbyte : byteAt (front ++ pad) 0 = byteAt front 0 := byteAt_append_left (by omega) pad
  unfold parseHeaders
  simp only [hflag, if_true, hbyte]
  rw [parseHeadersBlock_append (by omega)]

end Padding

/-- A frame with another payload of the same length. -/
theorem Frame.matches_payload {f f' : Frame} (htype : f'.type = f.type)
    (hid : f'.streamId = f.streamId) (hflags : f'.flags = f.flags)
    (hlen : f'.payload.length = f.payload.length) {t : FrameType} (ht : f.type = t.toByte)
    (hmay : t.MayPad ∨ t = .windowUpdate)
    (hdata : t = .data → parseData f.header f'.payload = parseData f.header f.payload)
    (hheaders : t = .headers → parseHeaders f.header f'.payload = parseHeaders f.header f.payload)
    (hupdate : t = .windowUpdate →
      parseWindowUpdate f.header f'.payload = parseWindowUpdate f.header f.payload) :
    f.Matches f' := by
  have hheader : f'.header = f.header := by
    rw [Frame.header, Frame.header, htype, hid, hflags, hlen]
  -- the parser of another type refuses both
  have hother : ∀ {u : FrameType}, ¬ t = u → f.header.type ≠ u.toByte := by
    intro u hne heq
    rw [Frame.header_type, ht, FrameType.toByte_inj] at heq
    exact hne heq
  refine ⟨htype, hid, hlen, fun _ _ => by rw [hflags], by rw [hheader], ?_, ?_, ?_, ?_⟩
  · rw [hheader]
    by_cases hd : t = .data
    · exact hdata hd
    · rw [parseData, parseData, if_pos (Or.inl (hother hd)), if_pos (Or.inl (hother hd))]
  · rw [hheader]
    by_cases hh : t = .headers
    · exact hheaders hh
    · rw [parseHeaders, parseHeaders, if_pos (Or.inl (hother hh)), if_pos (Or.inl (hother hh))]
  · rw [hheader]
    by_cases hu : t = .windowUpdate
    · exact hupdate hu
    · rw [parseWindowUpdate, parseWindowUpdate, if_pos (hother hu), if_pos (hother hu)]
  · intro u hu hpad hne
    obtain rfl : t = u := FrameType.toByte_inj.mp (ht.symm.trans hu)
    rcases hmay with hmay | hmay
    · exact absurd hmay hpad
    · exact absurd hmay hne

/-! ### From the bytes -/

/-- The bytes of a frame: a header of nine bytes, and the payload. -/
theorem piece_bytes {bytes : List UInt8} {f : Frame} (h : cutFrame bytes = some (f, [])) :
    ∃ b0 b1 b2 s0 s1 s2 s3, bytes = b0 :: b1 :: b2 :: f.type :: f.flags :: s0 :: s1 :: s2 :: s3 :: f.payload
      ∧ f.payload.length = b0.toNat <<< 16 ||| b1.toNat <<< 8 ||| b2.toNat
      ∧ f.streamId = readU31 [s0, s1, s2, s3] := by
  obtain ⟨hparse, hdrop, hlen, -⟩ := cutFrame_eq_some h
  rw [List.append_nil] at hdrop
  obtain ⟨head, hhead, rfl⟩ : ∃ head, head.length = 9 ∧ bytes = head ++ f.payload := by
    refine ⟨bytes.take 9, ?_, ?_⟩
    · rw [List.length_take]
      simp only [frameHeaderLen] at hlen
      omega
    · rw [← hdrop]
      exact (List.take_append_drop 9 bytes).symm
  match head, hhead with
  | [b0, b1, b2, b3, b4, s0, s1, s2, s3], _ =>
      have hshort : ¬ ([b0, b1, b2, b3, b4, s0, s1, s2, s3] ++ f.payload).length < frameHeaderLen := by
        simp [frameHeaderLen]
      rw [parseHeader, if_neg hshort] at hparse
      have hfields := FrameHeader.mk.inj (Except.ok.inj hparse)
      obtain ⟨hlength, htype, hflags, hid⟩ := hfields
      refine ⟨b0, b1, b2, s0, s1, s2, s3, ?_, hlength.symm, hid.symm⟩
      rw [← htype, ← hflags]
      rfl

/-- Nine bytes and a payload of the length they say are a frame. -/
theorem cutFrame_piece {b0 b1 b2 : UInt8} {payload : List UInt8}
    (hlen : payload.length = b0.toNat <<< 16 ||| b1.toNat <<< 8 ||| b2.toNat)
    (type flags s0 s1 s2 s3 : UInt8) :
    cutFrame (b0 :: b1 :: b2 :: type :: flags :: s0 :: s1 :: s2 :: s3 :: payload)
      = some (Frame.of type flags (readU31 [s0, s1, s2, s3]) payload, []) := by
  have hshort : ¬ (b0 :: b1 :: b2 :: type :: flags :: s0 :: s1 :: s2 :: s3 :: payload).length
      < frameHeaderLen := by
    simp [frameHeaderLen]
  have hfit : ¬ frameHeaderLen + (b0.toNat <<< 16 ||| b1.toNat <<< 8 ||| b2.toNat)
      > (b0 :: b1 :: b2 :: type :: flags :: s0 :: s1 :: s2 :: s3 :: payload).length := by
    rw [← hlen]
    simp [frameHeaderLen]
    omega
  have hparse : parseHeader (b0 :: b1 :: b2 :: type :: flags :: s0 :: s1 :: s2 :: s3 :: payload)
      = .ok { length := payload.length, type, flags, streamId := readU31 [s0, s1, s2, s3] } := by
    rw [parseHeader, if_neg hshort]
    congr 1
    rw [FrameHeader.mk.injEq]
    refine ⟨?_, rfl, rfl, ?_⟩
    · simp only [byteAt_cons_zero, byteAt_cons_succ]
      exact hlen.symm
    · show readU31 (s0 :: s1 :: s2 :: s3 :: payload) = readU31 [s0, s1, s2, s3]
      rw [readU31_cons, readU31_cons]
  have hdrop : (b0 :: b1 :: b2 :: type :: flags :: s0 :: s1 :: s2 :: s3 :: payload).drop
      (frameHeaderLen + payload.length) = [] := by
    apply List.drop_of_length_le
    simp [frameHeaderLen]
    omega
  have hbehind : (b0 :: b1 :: b2 :: type :: flags :: s0 :: s1 :: s2 :: s3 :: payload).drop
      frameHeaderLen = payload := rfl
  rw [← hlen] at hfit
  rw [cutFrame, hparse]
  simp only
  rw [if_neg hfit, hdrop, hbehind, List.take_length]

theorem piece_payload_lt {b0 b1 b2 : UInt8} :
    b0.toNat <<< 16 ||| b1.toNat <<< 8 ||| b2.toNat ≤ maxFrameSizeLimit := by
  have h0 := b0.toNat_lt
  have h1 := b1.toNat_lt
  have h2 := b2.toNat_lt
  rw [shiftLeft_or_three h1 h2]
  simp only [maxFrameSizeLimit]
  omega

theorem flip_and_127 (b : UInt8) : (b ^^^ 0x80).toNat &&& 0x7f = b.toNat &&& 0x7f :=
  @forall_octet (fun b => (b ^^^ 0x80).toNat &&& 0x7f = b.toNat &&& 0x7f) (by decide +kernel) b

/-- The reserved bit of a number of 31 bits. -/
theorem readU31_flip (b : UInt8) (rest : List UInt8) :
    readU31 ((b ^^^ 0x80) :: rest) = readU31 (b :: rest) := by
  simp only [readU31, byteAt_cons_zero, byteAt_cons_succ, flip_and_127]

/-- **A changed frame matches the frame it was.** -/
theorem FrameChange.matches {bytes bytes' : List UInt8} {f : Frame} (h : FrameChange bytes bytes')
    (hcut : cutFrame bytes = some (f, [])) :
    ∃ f', cutFrame bytes' = some (f', []) ∧ f.Matches f' := by
  obtain ⟨b0, b1, b2, s0, s1, s2, s3, rfl, hlen, hid⟩ := piece_bytes hcut
  cases h with
  -- `h2_read_u31` masks the bit
  | reservedBit =>
      refine ⟨f, ?_, .refl f⟩
      have hpiece := cutFrame_piece hlen f.type f.flags (s0 ^^^ 0x80) s1 s2 s3
      rwa [readU31_flip, ← hid, f.of_self] at hpiece
  -- so does the parser of WINDOW_UPDATE
  | incrementBit htype =>
      have ht : f.type = FrameType.windowUpdate.toByte := htype
      have hsame : (f.payload.modify 0 (· ^^^ 0x80)).length = f.payload.length :=
        List.length_modify ..
      have hlen' := hsame.trans hlen
      have hpay := Frame.of_payload (hlen' ▸ piece_payload_lt) f.type f.flags f.streamId
      have hpiece := cutFrame_piece hlen' f.type f.flags s0 s1 s2 s3
      rw [← hid] at hpiece
      refine ⟨_, hpiece, Frame.matches_payload rfl (Nat.mod_eq_of_lt f.streamId_lt) rfl
        (by rw [hpay, hsame]) ht (Or.inr rfl) (fun h => by cases h) (fun h => by cases h)
        fun _ => ?_⟩
      rw [hpay]
      unfold parseWindowUpdate
      rcases f.payload with _ | ⟨b, rest⟩
      · rfl
      · rw [List.modify_zero_cons, readU31_flip]
  -- the flags that the handler tests are the ones it tested
  | @flagBits t htype bits hbits =>
      have ht : f.type = t.toByte := htype
      have hpiece := cutFrame_piece hlen f.type (f.flags ^^^ bits) s0 s1 s2 s3
      rw [← hid] at hpiece
      refine ⟨_, hpiece, Frame.matches_flags rfl (Nat.mod_eq_of_lt f.streamId_lt)
        (Frame.of_payload f.payload_le ..) fun u hu => ?_⟩
      obtain rfl : t = u := FrameType.toByte_inj.mp (ht.symm.trans hu)
      exact xor_and_of_and_eq_zero hbits
  -- the padding is as long as before, and only its length is read
  | @padding t htype hpad hflag hroom pad hlength =>
      have ht : f.type = t.toByte := htype
      have hpadded : hasFlag f.flags flagPadded = true := hflag
      have hlength' : pad.length = byteAt f.payload 0 := hlength
      have hroom' : pad.length + 1 ≤ f.payload.length := by
        rw [hlength']
        simp only [List.length_cons, frameHeaderLen, byteAt_cons_succ] at hroom
        omega
      -- the payload in front of the padding
      obtain ⟨front, old, hsplit, hold, hfront⟩ : ∃ front old, f.payload = front ++ old
          ∧ old.length = pad.length ∧ front.length = f.payload.length - pad.length := by
        refine ⟨f.payload.take (f.payload.length - pad.length),
          f.payload.drop (f.payload.length - pad.length), (List.take_append_drop ..).symm, ?_, ?_⟩
        · rw [List.length_drop]
          omega
        · rw [List.length_take]
          omega
      have hbyte : byteAt front 0 = pad.length := by
        rw [hlength', hsplit, byteAt_append_left (by omega)]
      have hsame : (front ++ pad).length = f.payload.length := by
        rw [List.length_append]
        omega
      have hlen' := hsame.trans hlen
      have hpay := Frame.of_payload (hlen' ▸ piece_payload_lt) f.type f.flags f.streamId
      have hpiece := cutFrame_piece hlen' f.type f.flags s0 s1 s2 s3
      rw [← hid] at hpiece
      have hbytes : (b0 :: b1 :: b2 :: f.type :: f.flags :: s0 :: s1 :: s2 :: s3 :: f.payload).take
          ((b0 :: b1 :: b2 :: f.type :: f.flags :: s0 :: s1 :: s2 :: s3 :: f.payload).length
            - byteAt (b0 :: b1 :: b2 :: f.type :: f.flags :: s0 :: s1 :: s2 :: s3 :: f.payload) 9)
          ++ pad
          = b0 :: b1 :: b2 :: f.type :: f.flags :: s0 :: s1 :: s2 :: s3 :: (front ++ pad) := by
        have htake : f.payload.take front.length = front := by
          rw [hsplit]
          exact List.take_left
        have hcount : (b0 :: b1 :: b2 :: f.type :: f.flags :: s0 :: s1 :: s2 :: s3
            :: f.payload).length
            - byteAt (b0 :: b1 :: b2 :: f.type :: f.flags :: s0 :: s1 :: s2 :: s3 :: f.payload) 9
            = front.length + 9 := by
          simp only [List.length_cons, byteAt_cons_succ]
          omega
        rw [hcount]
        simp only [List.take_succ_cons, htake, List.cons_append]
      rw [← hbytes] at hpiece
      refine ⟨_, hpiece, Frame.matches_payload rfl (Nat.mod_eq_of_lt f.streamId_lt) rfl
        (by rw [hpay, hsame]) ht (Or.inl hpad) (fun _ => ?_) (fun _ => ?_) fun h => ?_⟩
      · rw [hpay, hsplit, parseData_padding hpadded (by omega) hbyte (by rw [Frame.header_length]; omega),
          parseData_padding hpadded (by omega) (hbyte.trans hold.symm)
            (by rw [Frame.header_length]; omega)]
      · rw [hpay, hsplit, parseHeaders_padding hpadded (by omega) hbyte (by rw [Frame.header_length]; omega),
          parseHeaders_padding hpadded (by omega) (hbyte.trans hold.symm)
            (by rw [Frame.header_length]; omega)]
      · subst h
        rcases hpad with hpad | hpad | hpad <;> cases hpad

/-! ## States that cannot be told apart -/

namespace Connection

/-- The state without the saved flags that are not defined for HEADERS. -/
def significant (c : Connection) : Connection :=
  { c with headerBlockFlags := c.headerBlockFlags &&& FrameType.headers.definedFlags }

/-- The result of a handler, without these flags. -/
def result (r : ErrorCode × Connection) : ErrorCode × Connection := (r.1, r.2.significant)

variable {c c' : Connection}

/-- States that agree in what is significant agree in everything else. -/
theorem eq_of_significant (h : c'.significant = c.significant) :
    ∃ flags, c' = { c with headerBlockFlags := flags }
      ∧ flags &&& FrameType.headers.definedFlags
        = c.headerBlockFlags &&& FrameType.headers.definedFlags := by
  refine ⟨c'.headerBlockFlags, ?_, congrArg Connection.headerBlockFlags h⟩
  calc c' = { c'.significant with headerBlockFlags := c'.headerBlockFlags } := rfl
    _ = { c.significant with headerBlockFlags := c'.headerBlockFlags } := by rw [h]
    _ = { c with headerBlockFlags := c'.headerBlockFlags } := rfl

/-- A handler that does not look at the scratch fields does not look at the saved flags. -/
theorem result_of_moved (r : Connection → ErrorCode × Connection)
    (hmoved : ∀ (c : Connection) (w : Scratch), r (c.withScratch w) = moved w (r c))
    (h : c'.significant = c.significant) : result (r c') = result (r c) := by
  obtain ⟨flags, rfl, hflags⟩ := eq_of_significant h
  have hself : r c = moved (c.scratch c.input) (r c) := hmoved c (c.scratch c.input)
  have hother : r { c with headerBlockFlags := flags }
      = moved { c.scratch c.input with flags } (r c) :=
    hmoved c { c.scratch c.input with flags }
  rw [hother, hself]
  simp only [result, moved, significant, withScratch, scratch, hflags]

theorem andThen_result {first first' : ErrorCode × Connection}
    {next : Connection → ErrorCode × Connection} (h : result first' = result first)
    (hnext : ∀ {c c' : Connection}, c'.significant = c.significant →
      result (next c') = result (next c)) :
    result (andThen first' next) = result (andThen first next) := by
  obtain ⟨ret, c⟩ := first
  obtain ⟨ret', c'⟩ := first'
  obtain ⟨hret, hstate⟩ := Prod.mk.inj h
  obtain rfl : ret' = ret := hret
  by_cases hok : ret' = .ok
  · subst hok
    rw [andThen_ok, andThen_ok]
    exact hnext hstate
  · rw [andThen_err hok, andThen_err hok]
    exact h

/-- A header block is finished with the flags that are saved, but only END_STREAM counts. -/
theorem finishHeaders_result (h : c'.significant = c.significant) (streamId : Nat)
    {flags flags' : UInt8} (hflags : hasFlag flags' flagEndStream = hasFlag flags flagEndStream)
    (block : List UInt8) : result (c'.finishHeaders streamId flags' block)
      = result (c.finishHeaders streamId flags block) := by
  have hsame : c'.finishHeaders streamId flags' block = c'.finishHeaders streamId flags block := by
    have hself := finishHeaders_withScratch c' (c'.scratch c'.input) streamId hflags block
    have hself' := finishHeaders_withScratch c' (c'.scratch c'.input) streamId
      (rfl : hasFlag flags flagEndStream = hasFlag flags flagEndStream) block
    rw [withScratch_scratch] at hself hself'
    exact hself.trans hself'.symm
  rw [hsame]
  exact result_of_moved (fun c => c.finishHeaders streamId flags block)
    (fun c w => finishHeaders_withScratch c w streamId rfl block) h

theorem appendHeaderBlock_result (h : c'.significant = c.significant) (data : List UInt8) :
    result (c'.appendHeaderBlock data) = result (c.appendHeaderBlock data) := by
  obtain ⟨flags, rfl, hflags⟩ := eq_of_significant h
  unfold appendHeaderBlock
  by_cases hbig : data.length > headerBlockCap - c.headerBlock.length
  · rw [if_pos hbig, if_pos hbig]
    exact Prod.ext rfl h
  · rw [if_neg hbig, if_neg hbig]
    simp only [result, significant, hflags]

/-! ## One frame -/

variable {f f' : Frame}

theorem processHeaders_result (h : c'.significant = c.significant) (header : FrameHeader)
    (payload : List UInt8) :
    result (c'.processHeaders header payload) = result (c.processHeaders header payload) := by
  obtain ⟨flags, rfl, hflags⟩ := eq_of_significant h
  unfold processHeaders
  rcases parseHeaders header payload with ret | parsed
  · exact Prod.ext rfl h
  · simp only
    by_cases hend : hasFlag header.flags flagEndHeaders = false
    · rw [if_pos hend, if_pos hend]
      by_cases hopen : c.headerBlockOpen = true
      · rw [if_pos hopen, if_pos hopen]
        exact Prod.ext rfl h
      · rw [if_neg hopen, if_neg hopen]
    · rw [if_neg hend, if_neg hend]
      exact finishHeaders_result h _ rfl _

theorem processContinuation_result (h : c'.significant = c.significant) (header : FrameHeader)
    (payload : List UInt8) : result (c'.processContinuation header payload)
      = result (c.processContinuation header payload) := by
  obtain ⟨flags, rfl, hflags⟩ := eq_of_significant h
  unfold processContinuation
  by_cases hbad : c.headerBlockOpen = false ∨ header.streamId ≠ c.headerBlockStreamId
  · rw [if_pos hbad, if_pos hbad]
    exact Prod.ext rfl h
  · rw [if_neg hbad, if_neg hbad]
    rcases parseContinuation header payload with ret | fragment
    · exact Prod.ext rfl h
    · refine andThen_result (appendHeaderBlock_result h fragment) fun {d d'} hd => ?_
      by_cases hend : hasFlag header.flags flagEndHeaders = false
      · rw [if_pos hend, if_pos hend]
        exact Prod.ext rfl hd
      · rw [if_neg hend, if_neg hend]
        -- the block is finished with what has been saved
        obtain ⟨saved, rfl, hsaved⟩ := eq_of_significant hd
        refine finishHeaders_result ?_ _ (hasFlag_eq_of_defined hsaved (by decide)) _
        simp only [significant, hsaved]

/-- **A frame is handled alike in states that cannot be told apart.** -/
theorem processFrame_result (h : c'.significant = c.significant) (header : FrameHeader)
    (payload : List UInt8) :
    result (c'.processFrame header payload) = result (c.processFrame header payload) := by
  have hsame : ∀ ret, result (ret, c') = result (ret, c) := fun ret => Prod.ext rfl h
  obtain ⟨hmax, hopen, hid⟩ : c'.maxFrameSize = c.maxFrameSize
      ∧ c'.headerBlockOpen = c.headerBlockOpen
      ∧ c'.headerBlockStreamId = c.headerBlockStreamId := by
    obtain ⟨flags, rfl, -⟩ := eq_of_significant h
    exact ⟨rfl, rfl, rfl⟩
  unfold processFrame
  rw [hmax, hopen, hid]
  -- the guards read only what is significant, and so do the handlers
  by_cases hlen : header.length > c.maxFrameSize
  · rw [if_pos hlen, if_pos hlen]
    exact hsame _
  · rw [if_neg hlen, if_neg hlen]
    by_cases hblock : c.headerBlockOpen = true ∧ (header.type ≠ FrameType.continuation.toByte
        ∨ header.streamId ≠ c.headerBlockStreamId)
    · rw [if_pos hblock, if_pos hblock]
      exact hsame _
    · rw [if_neg hblock, if_neg hblock]
      rcases FrameType.ofByte? header.type with _ | t
      · exact hsame _
      · cases t with
        | data =>
            exact result_of_moved (fun c => c.processData header payload)
              (fun c w => processData_withScratch c w header payload) h
        | headers => exact processHeaders_result h header payload
        | priority =>
            simp only
            rcases parsePriority header payload with ret | priority
            · exact hsame _
            · exact hsame _
        | rstStream =>
            exact result_of_moved (fun c => c.processRstStream header payload)
              (fun c w => processRstStream_withScratch c w header payload) h
        | settings =>
            exact result_of_moved (fun c => c.applySettings header payload)
              (fun c w => applySettings_withScratch c w header payload) h
        | pushPromise => exact hsame _
        | ping =>
            exact result_of_moved (fun c => c.processPing header payload)
              (fun c w => processPing_withScratch c w header payload) h
        | goaway => exact hsame _
        | windowUpdate =>
            exact result_of_moved (fun c => c.processWindowUpdate header payload)
              (fun c w => processWindowUpdate_withScratch c w header payload) h
        | continuation => exact processContinuation_result h header payload

theorem processHeaders_matches (c : Connection) (hm : f.Matches f')
    (ht : f.type = FrameType.headers.toByte) : result (c.processHeaders f'.header f'.payload)
      = result (c.processHeaders f.header f.payload) := by
  have hend : hasFlag f'.header.flags flagEndHeaders = hasFlag f.header.flags flagEndHeaders :=
    hm.hasFlag ht (by decide)
  have hstream : hasFlag f'.header.flags flagEndStream = hasFlag f.header.flags flagEndStream :=
    hm.hasFlag ht (by decide)
  have hid : f'.header.streamId = f.header.streamId := hm.streamId
  unfold processHeaders
  rw [hm.headers, hid]
  rcases parseHeaders f.header f.payload with ret | parsed
  · rfl
  · simp only
    by_cases hopen : hasFlag f.header.flags flagEndHeaders = false
    · rw [if_pos hopen, if_pos (hend.trans hopen)]
      by_cases hblock : c.headerBlockOpen = true
      · rw [if_pos hblock, if_pos hblock]
      · rw [if_neg hblock, if_neg hblock]
        -- the flags are saved as they are
        apply appendHeaderBlock_result
        simp only [significant, Frame.header_flags, hm.flags .headers ht]
    · rw [if_neg hopen, if_neg fun h => hopen (hend.symm.trans h)]
      exact finishHeaders_result rfl _ hstream _

theorem processData_matches (c : Connection) (hm : f.Matches f')
    (ht : f.type = FrameType.data.toByte) : c.processData f'.header f'.payload
      = c.processData f.header f.payload := by
  have hend : hasFlag f'.header.flags flagEndStream = hasFlag f.header.flags flagEndStream :=
    hm.hasFlag ht (by decide)
  have hid : f'.header.streamId = f.header.streamId := hm.streamId
  have hlen : f'.header.length = f.header.length := hm.length
  unfold processData
  rw [hm.data, hid, hlen, hend]

theorem processWindowUpdate_matches (c : Connection) (hm : f.Matches f') :
    c.processWindowUpdate f'.header f'.payload = c.processWindowUpdate f.header f.payload := by
  have hid : f'.header.streamId = f.header.streamId := hm.streamId
  unfold processWindowUpdate
  rw [hm.windowUpdate, hid]

theorem processContinuation_matches (c : Connection) (hm : f.Matches f')
    (ht : f.type = FrameType.continuation.toByte) : c.processContinuation f'.header f'.payload
      = c.processContinuation f.header f.payload := by
  have hend : hasFlag f'.header.flags flagEndHeaders = hasFlag f.header.flags flagEndHeaders :=
    hm.hasFlag ht (by decide)
  have hpayload := hm.payload .continuation ht (by simp [FrameType.MayPad]) (by decide)
  have htype : f'.header.type = f.header.type := hm.type
  have hid : f'.header.streamId = f.header.streamId := hm.streamId
  have hlen : f'.header.length = f.header.length := hm.length
  unfold processContinuation parseContinuation
  rw [hid, htype, hm.valid, hpayload, hlen, hend]

/-- The frames of the other types have the same payload. -/
theorem processOther_matches (c : Connection) (hm : f.Matches f') :
    (f.type = FrameType.priority.toByte →
        parsePriority f'.header f'.payload = parsePriority f.header f.payload)
      ∧ (f.type = FrameType.rstStream.toByte → c.processRstStream f'.header f'.payload
        = c.processRstStream f.header f.payload)
      ∧ (f.type = FrameType.settings.toByte → c.applySettings f'.header f'.payload
        = c.applySettings f.header f.payload)
      ∧ (f.type = FrameType.ping.toByte → c.processPing f'.header f'.payload
        = c.processPing f.header f.payload) := by
  have htype : f'.header.type = f.header.type := hm.type
  have hid : f'.header.streamId = f.header.streamId := hm.streamId
  have hlen : f'.header.length = f.header.length := hm.length
  refine ⟨fun ht => ?_, fun ht => ?_, fun ht => ?_, fun ht => ?_⟩
  · have hpayload := hm.payload .priority ht (by simp [FrameType.MayPad]) (by decide)
    rw [parsePriority, parsePriority, htype, hm.valid, hid, hpayload]
  · have hpayload := hm.payload .rstStream ht (by simp [FrameType.MayPad]) (by decide)
    unfold processRstStream parseRstStream
    rw [htype, hm.valid, hid, hpayload]
  · have hpayload := hm.payload .settings ht (by simp [FrameType.MayPad]) (by decide)
    have hack : hasFlag f'.header.flags flagAck = hasFlag f.header.flags flagAck :=
      hm.hasFlag ht (by decide)
    unfold applySettings parseSettings
    rw [htype, hm.valid, hack, hlen, hpayload]
  · have hpayload := hm.payload .ping ht (by simp [FrameType.MayPad]) (by decide)
    have hack : hasFlag f'.header.flags flagAck = hasFlag f.header.flags flagAck :=
      hm.hasFlag ht (by decide)
    unfold processPing parsePing
    rw [htype, hm.valid, hack, hpayload]

/-- **Frames that match are handled alike.** -/
theorem processFrame_matches (c : Connection) (hm : f.Matches f') :
    result (c.processFrame f'.header f'.payload) = result (c.processFrame f.header f.payload) := by
  have hsize : f'.header.length = f.header.length := hm.length
  have hkind : f'.header.type = f.header.type := hm.type
  have hid : f'.header.streamId = f.header.streamId := hm.streamId
  unfold processFrame
  rw [hsize, hkind, hid]
  by_cases hlen : f.header.length > c.maxFrameSize
  · rw [if_pos hlen, if_pos hlen]
  · rw [if_neg hlen, if_neg hlen]
    by_cases hblock : c.headerBlockOpen = true ∧ (f.header.type ≠ FrameType.continuation.toByte
        ∨ f.header.streamId ≠ c.headerBlockStreamId)
    · rw [if_pos hblock, if_pos hblock]
    · rw [if_neg hblock, if_neg hblock]
      obtain ⟨hpriority, hrst, hsettings, hping⟩ := processOther_matches c hm
      rcases htype : FrameType.ofByte? f.header.type with _ | t
      · rfl
      · have ht := FrameType.ofByte?_eq_some htype
        cases t with
        | data => exact congrArg result (processData_matches c hm ht)
        | headers => exact processHeaders_matches c hm ht
        | priority => simp only [hpriority ht]
        | rstStream => exact congrArg result (hrst ht)
        | settings => exact congrArg result (hsettings ht)
        | pushPromise => rfl
        | ping => exact congrArg result (hping ht)
        | goaway => simp only [hm.valid]
        | windowUpdate => exact congrArg result (processWindowUpdate_matches c hm)
        | continuation => exact congrArg result (processContinuation_matches c hm ht)

/-- **One frame**: matching frames have the same effect on states that cannot be told apart. -/
theorem handleFrame_result (h : c'.significant = c.significant) (hm : f.Matches f') :
    result (c'.handleFrame f') = result (c.handleFrame f) := by
  have hproc : result (c'.processFrame f'.header f'.payload)
      = result (c.processFrame f.header f.payload) :=
    calc result (c'.processFrame f'.header f'.payload)
        = result (c'.processFrame f.header f.payload) := processFrame_matches c' hm
      _ = result (c.processFrame f.header f.payload) := processFrame_result h f.header f.payload
  rcases hres : c.processFrame f.header f.payload with ⟨ret, d⟩
  rcases hres' : c'.processFrame f'.header f'.payload with ⟨ret', d'⟩
  rw [hres, hres'] at hproc
  obtain ⟨hret, hstate⟩ := Prod.mk.inj hproc
  obtain rfl : ret' = ret := hret
  by_cases hok : ret' = .ok
  · subst hok
    rw [handleFrame_ok hres, handleFrame_ok hres']
    exact hproc
  · by_cases hreset : isStreamError ret' = true ∧ f.streamId ≠ 0
    · have hreset' : isStreamError ret' = true ∧ f'.streamId ≠ 0 := by rwa [hm.streamId]
      rw [handleFrame_reset hres hreset.1 hreset.2, handleFrame_reset hres' hreset'.1 hreset'.2,
        hm.streamId]
      exact result_of_moved (fun c => c.resetStreamError f.streamId ret')
        (fun c w => resetStreamError_withScratch c w _ _) hstate
    · have hreset' : ¬ (isStreamError ret' = true ∧ f'.streamId ≠ 0) := by rwa [hm.streamId]
      rw [handleFrame_goaway hres hok hreset, handleFrame_goaway hres' hok hreset']
      have hgo := result_of_moved (fun c => c.queueGoaway ret')
        (fun c w => queueGoaway_withScratch c w ret') hstate
      exact Prod.ext rfl (Prod.mk.inj hgo).2

/-- **A frame that is to be ignored leaves no trace.** -/
theorem handleFrame_inert {c : Connection} (hf : f.Ignored)
    (hlen : f.payload.length ≤ c.maxFrameSize) (hopen : c.headerBlockOpen = false) :
    c.handleFrame f = (.ok, c) := by
  apply handleFrame_ok
  have hbig : ¬ f.header.length > c.maxFrameSize := by
    rw [Frame.header_length]
    omega
  rw [processFrame, if_neg hbig, if_neg (by simp [hopen]), Frame.header_type]
  unfold Frame.Ignored at hf
  rcases htype : FrameType.ofByte? f.type with _ | t
  · rfl
  · have ht := FrameType.ofByte?_eq_some htype
    rw [htype] at hf
    -- of the known types, those whose handler reads the payload and changes nothing
    cases t with
    | priority =>
        have hok : ¬ (f.header.type ≠ FrameType.priority.toByte ∨ validatePayload f.header ≠ .ok) := by
          simp [ht, hf.1]
        have hdependency : ¬ readU31 f.payload = f.header.streamId := hf.2
        simp only
        rw [parsePriority, if_neg hok, if_neg hdependency]
    | settings =>
        have hsame : f.header.type = FrameType.settings.toByte := ht
        simp only [applySettings, parseSettings, hsame, ne_eq, not_true_eq_false, if_false, hf.1,
          Frame.header_flags, hf.2, if_true]
    | ping =>
        have hsame : f.header.type = FrameType.ping.toByte := ht
        simp only [processPing, parsePing, hsame, ne_eq, not_true_eq_false, if_false, hf.1,
          Frame.header_flags, hf.2, if_true]
    | goaway => exact Prod.ext hf rfl
    | data => exact hf.elim
    | headers => exact hf.elim
    | rstStream => exact hf.elim
    | pushPromise => exact hf.elim
    | windowUpdate => exact hf.elim
    | continuation => exact hf.elim

end Connection

/-! ## Edited streams and edited runs -/

/-- The bytes of a frame are one frame. -/
theorem framesOf_piece {bytes : List UInt8} {f : Frame} (h : cutFrame bytes = some (f, [])) :
    framesOf bytes = [f] := by
  have hcut : frameFraming.cut bytes = some (f, []) := h
  rw [framesOf, frameFraming.split_of_cut_eq_some hcut]
  rfl

/-- Any number of changes. -/
theorem changes_match {bytes bytes' : List UInt8} {f : Frame}
    (h : Relation.ReflTransGen FrameChange bytes bytes') (hcut : cutFrame bytes = some (f, [])) :
    ∃ f', cutFrame bytes' = some (f', []) ∧ ∀ {c c' : Connection}, c'.significant = c.significant →
      result (c'.handleFrame f') = result (c.handleFrame f) := by
  induction h with
  | refl => exact ⟨f, hcut, fun hc => handleFrame_result hc (.refl f)⟩
  | tail _ hstep ih =>
      obtain ⟨g, hg, hsame⟩ := ih
      obtain ⟨f', hf', hmatch⟩ := hstep.matches hg
      refine ⟨f', hf', fun {c c'} hc => ?_⟩
      calc result (c'.handleFrame f') = result (c'.handleFrame g) := handleFrame_result rfl hmatch
        _ = result (c.handleFrame f) := hsame hc

/-- The frame of an inert piece, and what it does to a connection. -/
theorem inert_handled {c c' : Connection} {bytes : List UInt8} (h : Inert c bytes)
    (hsame : c'.significant = c.significant) :
    ∃ f, framesOf bytes = [f] ∧ c'.handleFrame f = (.ok, c') := by
  obtain ⟨f, hcut, hf, hlen, hopen⟩ := h
  obtain ⟨flags, rfl, -⟩ := eq_of_significant hsame
  exact ⟨f, framesOf_piece hcut, handleFrame_inert hf hlen hopen⟩

/-- The two connections without output cannot be told apart, and have sent the same. -/
def Drained.Same (d d' : Drained) : Prop :=
  d'.conn.significant = d.conn.significant ∧ d'.sent = d.sent

theorem Drained.Same.changed {d d' : Drained} {e e' : Item} (h : d.Same d') (hc : Item.Changed e e') :
    (d.read e).Same (d'.read e') := by
  obtain ⟨hconn, hsent⟩ := h
  cases hc with
  | preface bytes => exact ⟨hconn, hsent⟩
  | consume sentLen => exact ⟨hconn, hsent⟩
  | frame hcut hchanges =>
      obtain ⟨f', hcut', hsame⟩ := changes_match hchanges hcut
      have hres := (Prod.mk.inj (hsame hconn)).2
      simp only [Drained.read, framesOf_piece hcut, framesOf_piece hcut', List.foldl_cons,
        List.foldl_nil]
      obtain ⟨flags, hstate, hflags⟩ := eq_of_significant hres
      constructor
      · simp only [Drained.frame]
        rw [hstate]
        simp only [significant, hflags]
      · simp only [Drained.frame]
        rw [hstate, hsent]

theorem Drained.Same.inserted {d d' : Drained} {e : Item} (h : d.Same d') (hi : e.Inert d.conn) :
    d.Same (d'.read e) := by
  cases e with
  | preface bytes => exact hi.elim
  | consume sentLen => exact hi.elim
  | frame bytes =>
      obtain ⟨f, hframe, hhandled⟩ := inert_handled hi h.1
      simp only [Drained.read, hframe, List.foldl_cons, List.foldl_nil]
      refine ⟨?_, ?_⟩
      · simp only [Drained.frame, hhandled]
        rw [← h.1, ← d'.output]
      · simp only [Drained.frame, hhandled, d'.output, List.append_nil]
        exact h.2

theorem Drained.Same.deleted {d d' : Drained} {e : Item} (h : d.Same d') (hi : e.Inert d.conn) :
    (d.read e).Same d' := by
  have hself : d.Same (d.read e) := Drained.Same.inserted ⟨rfl, rfl⟩ hi
  exact ⟨h.1.trans hself.1.symm, h.2.trans hself.2.symm⟩

/-- The two connections cannot be told apart, and have sent the same, with the same errors. -/
def Played.Same (o o' : Played) : Prop :=
  o'.conn.significant = o.conn.significant ∧ o'.sent = o.sent ∧ o'.ok = o.ok

/-- The reply to the preface. -/
theorem greet_result {d d' : Connection} (h : d'.significant = d.significant) :
    result (if d'.settingsSent then (.ok, d')
        else andThen d'.queueSettings fun conn => (.ok, { conn with settingsSent := true }))
      = result (if d.settingsSent then (.ok, d)
        else andThen d.queueSettings fun conn => (.ok, { conn with settingsSent := true })) := by
  have hset : d'.settingsSent = d.settingsSent := by
    obtain ⟨flags, rfl, -⟩ := eq_of_significant h
    rfl
  rw [hset]
  by_cases hsent : d.settingsSent = true
  · rw [if_pos hsent, if_pos hsent]
    exact Prod.ext rfl h
  · rw [if_neg hsent, if_neg hsent]
    refine andThen_result (result_of_moved (fun c => c.queueSettings)
      (fun c w => queueWire_withScratch c w _) h) fun {e e'} he => ?_
    obtain ⟨flags, rfl, hflags⟩ := eq_of_significant he
    simp only [result, significant, hflags]

theorem feedPreface_result {c c' : Connection} (h : c'.significant = c.significant)
    (bytes : List UInt8) : result ({ c' with input := bytes } : Connection).feedPreface
      = result ({ c with input := bytes } : Connection).feedPreface := by
  obtain ⟨flags, rfl, hflags⟩ := eq_of_significant h
  unfold feedPreface
  by_cases hpre : bytes.take clientPrefaceLen ≠ clientPreface
  · rw [if_pos hpre, if_pos hpre]
    have hsame : ({ c with input := bytes, headerBlockFlags := flags } : Connection).significant
        = ({ c with input := bytes } : Connection).significant := by
      simp only [significant, hflags]
    have hgo := result_of_moved (fun c => c.queueGoaway .protocolError)
      (fun c w => queueGoaway_withScratch c w .protocolError) hsame
    exact Prod.ext rfl (Prod.mk.inj hgo).2
  · rw [if_neg hpre, if_neg hpre]
    apply greet_result
    simp only [significant, dropInput, hflags]

theorem Played.Same.changed {o o' : Played} {e e' : Item} (h : o.Same o') (hc : Item.Changed e e') :
    (o.next e).Same (o'.next e') := by
  obtain ⟨hconn, hsent, hok⟩ := h
  cases hc with
  | preface bytes =>
      obtain ⟨hcode, hstate⟩ := Prod.mk.inj (feedPreface_result hconn bytes)
      refine ⟨hstate, hsent, ?_⟩
      simp only [Played.next, hcode, hok]
  | consume sentLen =>
      obtain ⟨flags, hstate, hflags⟩ := eq_of_significant hconn
      simp only [Played.next, Played.Same]
      rw [hstate, hsent, hok]
      refine ⟨?_, rfl, rfl⟩
      rw [consumeOutput, consumeOutput, compactOutput_eq, compactOutput_eq]
      simp only [significant, hflags]
      rfl
  | frame hcut hchanges =>
      obtain ⟨f', hcut', hsame⟩ := changes_match hchanges hcut
      obtain ⟨hcode, hstate⟩ := Prod.mk.inj (hsame hconn)
      simp only [Played.next, framesOf_piece hcut, framesOf_piece hcut', handleFrames_singleton]
      exact ⟨hstate, hsent, by rw [hcode, hok]⟩

theorem Played.Same.inserted {o o' : Played} {e : Item} (h : o.Same o') (hi : e.Inert o.conn) :
    o.Same (o'.next e) := by
  cases e with
  | preface bytes => exact hi.elim
  | consume sentLen => exact hi.elim
  | frame bytes =>
      obtain ⟨f, hframe, hhandled⟩ := inert_handled hi h.1
      simp only [Played.next, hframe, handleFrames_singleton, hhandled, beq_self_eq_true,
        Bool.and_true]
      exact h

theorem Played.Same.deleted {o o' : Played} {e : Item} (h : o.Same o') (hi : e.Inert o.conn) :
    (o.next e).Same o' := by
  have hself : o.Same (o.next e) := Played.Same.inserted ⟨rfl, rfl, rfl⟩ hi
  exact ⟨h.1.trans hself.1.symm, h.2.1.trans hself.2.1.symm, h.2.2.trans hself.2.2.symm⟩

/-! ## Runs -/

/-- Is the item the preface? -/
def Item.isPreface : Item → Bool
  | .preface _ => true
  | _ => false

theorem countP_items (bytes : List UInt8) : (items bytes).countP Item.isPreface
    = if bytes.length < clientPrefaceLen then 0 else 1 := by
  unfold items
  by_cases hshort : bytes.length < clientPrefaceLen
  · rw [if_pos hshort, if_pos hshort]
    rfl
  · rw [if_neg hshort, if_neg hshort, List.countP_cons_of_pos rfl, List.countP_map,
      List.countP_eq_zero.mpr]
    intro piece _
    simp [Item.isPreface]

/-- What the drained connection makes of a stream. -/
theorem foldl_items (bytes : List UInt8) :
    (items bytes).foldl Drained.read .start
      = drained (framesOf (bytes.drop clientPrefaceLen)) := by
  have hpieces : ∀ (ps : List (Frame × List UInt8)) (d : Drained),
      (∀ p ∈ ps, framesOf p.2 = [p.1]) →
      ((ps.map Prod.snd).map Item.frame).foldl Drained.read d
        = (ps.map Prod.fst).foldl Drained.frame d := by
    intro ps
    induction ps with
    | nil => exact fun _ _ => rfl
    | cons p ps ih =>
        intro d hps
        simp only [List.map_cons, List.foldl_cons, Drained.read, hps p (List.mem_cons_self ..),
          List.foldl_nil]
        exact ih _ fun q hq => hps q (List.mem_cons_of_mem _ hq)
  unfold items
  by_cases hshort : bytes.length < clientPrefaceLen
  · rw [if_pos hshort, List.drop_of_length_le hshort.le]
    rfl
  · rw [if_neg hshort, List.foldl_cons, framesOf, drained,
      ← (frameFraming.pieces_split (bytes.drop clientPrefaceLen)).1]
    exact hpieces _ .start (pieces_framesOf _)

/-- **Edited streams have the same outcome.** -/
theorem ignored_outcome {stream stream' : List UInt8} (h : Ignored stream stream') :
    (outcome stream').2 = (outcome stream).2
      ∧ ({ (outcome stream').1 with input := [] } : Connection).significant
        = ({ (outcome stream).1 with input := [] } : Connection).significant := by
  have hsame : ((items stream).foldl Drained.read .start).Same
      ((items stream').foldl Drained.read .start) :=
    Edits.foldl Drained.Same.changed Drained.Same.inserted Drained.Same.deleted h ⟨rfl, rfl⟩
  have hcount := Edits.countP (p := Item.isPreface) (fun hc => by cases hc <;> rfl)
    (fun {d e} hi => by cases e <;> first | rfl | exact hi.elim) h
  rw [countP_items, countP_items] at hcount
  rw [foldl_items, foldl_items] at hsame
  unfold outcome
  by_cases hshort : stream.length < clientPrefaceLen
  · rw [if_pos hshort] at hcount ⊢
    by_cases hshort' : stream'.length < clientPrefaceLen
    · rw [if_pos hshort']
      exact ⟨rfl, rfl⟩
    · rw [if_neg hshort'] at hcount
      cases hcount
  · rw [if_neg hshort] at hcount ⊢
    by_cases hshort' : stream'.length < clientPrefaceLen
    · rw [if_pos hshort'] at hcount
      cases hcount
    · rw [if_neg hshort']
      refine ⟨hsame.2, ?_⟩
      obtain ⟨flags, hstate, hflags⟩ := eq_of_significant hsame.1
      simp only [hstate, significant, hflags]

theorem outcome_input (stream : List UInt8) : (outcome stream).1.input = unhandled stream := by
  unfold outcome unhandled
  by_cases hshort : stream.length < clientPrefaceLen
  · rw [if_pos hshort, if_pos hshort]
  · rw [if_neg hshort, if_neg hshort]

/-- What is left in the input is what is behind the last complete frame. -/
theorem exec_input {ops : List Op} (hok : (exec ops).AllOk) :
    (exec ops).conn.input = unhandled (exec ops).received := by
  have hout := congrArg Prod.fst (exec_outcome hok)
  rw [← outcome_input, ← hout]

/-- **Edited runs have no errors** if the run has none. -/
theorem aligned_ok {ops ops' : List Op} (h : Aligned ops ops') (hok : (exec ops).AllOk)
    (hfit : Run.start.ChunksFit ops') :
    (exec ops').AllOk ∧ (exec ops').sent = (exec ops).sent := by
  have htracks := exec_plays hok
  have hsame : ((script [] ops).foldl Played.next .start).Same
      ((script [] ops').foldl Played.next .start) :=
    Edits.foldl Played.Same.changed Played.Same.inserted Played.Same.deleted h ⟨rfl, rfl, rfl⟩
  obtain ⟨-, hsent, hcode⟩ := hsame
  have hok' := exec_allOk hfit (hcode.trans htracks.ok)
  refine ⟨hok', ?_⟩
  calc (exec ops').sent = ((script [] ops').foldl Played.next .start).sent := (exec_plays hok').sent
    _ = ((script [] ops).foldl Played.next .start).sent := hsent
    _ = (exec ops).sent := htracks.sent.symm

/-- **What HTTP/2 says to ignore cannot be seen.** A run without errors is compared with a run over
an edited stream, in chunks that fit. If the output is consumed between the same frames, the second
run has no errors either. And if it has none, whatever has been consumed, the two have the same
total output and end in the same state, apart from what is still in the buffers: in the input of
each are the bytes of its stream behind the last complete frame. -/
theorem ignored_unobservable {ops ops' : List Op} (hok : (exec ops).AllOk)
    (hfit : Run.start.ChunksFit ops')
    (hstream : Ignored (exec ops).received (exec ops').received) :
    (Aligned ops ops' → (exec ops').AllOk ∧ (exec ops').sent = (exec ops).sent)
      ∧ ((exec ops').AllOk → (exec ops').total = (exec ops).total
        ∧ ({ (exec ops').conn with input := [], output := [] } : Connection).significant
          = ({ (exec ops).conn with input := [], output := [] } : Connection).significant
        ∧ (unhandled (exec ops').received = unhandled (exec ops).received →
          (exec ops').conn.input = (exec ops).conn.input)) := by
  refine ⟨fun h => aligned_ok h hok hfit, fun hok' => ?_⟩
  have hout := exec_outcome hok
  have hout' := exec_outcome hok'
  obtain ⟨hsent, hstate⟩ := ignored_outcome hstream
  refine ⟨?_, ?_, fun hrest => ?_⟩
  · calc (exec ops').total = (outcome (exec ops').received).2 := congrArg Prod.snd hout'
      _ = (outcome (exec ops).received).2 := hsent
      _ = (exec ops).total := (congrArg Prod.snd hout).symm
  · rw [← congrArg Prod.fst hout, ← congrArg Prod.fst hout'] at hstate
    exact hstate
  · rw [exec_input hok, exec_input hok', hrest]

/-- A request, and some of the reply consumed. -/
def plainRun : List Op := [.feed (clientInput [getRequest 1]), .consume 7]

/-- An acknowledgement of a PING. -/
def pingAck : Frame := pingAckFrame (List.replicate 8 0)

/-- The request with the reserved bit set. -/
def reservedRequest : List UInt8 := (getRequest 1).wire.modify 5 (· ^^^ 0x80)

/-- The same, with the reserved bit set and an acknowledgement in front. -/
def editedRun : List Op :=
  [.feed (clientPreface ++ pingAck.wire), .feed reservedRequest, .consume 7]

/-- A bit and a frame that are ignored, in another chunk. -/
theorem ignored_unobservable_ping : (exec editedRun).AllOk
    ∧ (exec editedRun).total = (exec plainRun).total := by
  have hinert : ∀ c : Connection, c.maxFrameSize = 16384 → c.headerBlockOpen = false →
      Inert c pingAck.wire := by
    intro c hmax hopen
    have hack : validatePayload pingAck.header = .ok ∧ hasFlag pingAck.flags flagAck = true := by
      decide +kernel
    exact ⟨pingAck, by decide +kernel, hack, by rw [hmax]; decide +kernel, hopen⟩
  have hchanged : Item.Changed (.frame (getRequest 1).wire) (.frame reservedRequest) :=
    .frame (by decide +kernel : cutFrame (getRequest 1).wire = some (getRequest 1, []))
      (.single .reservedBit)
  have hstream : Ignored (exec plainRun).received (exec editedRun).received := by
    have hitems : items (exec plainRun).received
        = [.preface clientPreface, .frame (getRequest 1).wire] := by decide +kernel
    have hitems' : items (exec editedRun).received
        = [.preface clientPreface, .frame pingAck.wire, .frame reservedRequest] := by decide +kernel
    rw [Ignored, hitems, hitems']
    exact .change (.preface _) (.insert (hinert _ rfl rfl) (.change hchanged (.nil _)))
  have haligned : Aligned plainRun editedRun := by
    have hscript : script [] plainRun
        = [.preface clientPreface, .frame (getRequest 1).wire, .consume 7] := by decide +kernel
    have hscript' : script [] editedRun = [.preface clientPreface, .frame pingAck.wire,
        .frame reservedRequest, .consume 7] := by decide +kernel
    rw [Aligned, hscript, hscript']
    exact .change (.preface _)
      (.insert (hinert _ rfl rfl) (.change hchanged (.change (.consume 7) (.nil _))))
  have hfit : Run.start.ChunksFit editedRun :=
    ⟨by decide +kernel, by decide +kernel, trivial⟩
  have hboth := ignored_unobservable (by decide +kernel) hfit hstream
  have hok := (hboth.1 haligned).1
  exact ⟨hok, (hboth.2 hok).1⟩

end C11Omo.Http2
