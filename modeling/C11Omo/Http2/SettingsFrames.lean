import C11Omo.Http2.LargeFrames

set_option autoImplicit false

/-! # SETTINGS frames

A SETTINGS frame of the client is applied entry by entry, in order, and acknowledged once. The
entries are copied into a local array of 32 before the first one is applied, so a frame with more
of them fails as a whole (`settings_applied`).
-/

namespace C11Omo.Http2

open C11Omo.Lib Connection

namespace Connection

variable {c : Connection} {f : Frame} {entries : List Setting}

/-- Every entry is legal when its turn comes: its value is in range, and it leaves no stream window
outside of the range of an `int32_t`. -/
def LegalInTurn (c : Connection) (entries : List Setting) : Prop :=
  ∀ before s after, entries = before ++ s :: after → (before.foldl applied c).SettingOk s

/-- Whether an entry is legal does not depend on the entries before it. -/
theorem legalInTurn_iff : c.LegalInTurn entries ↔ ∀ s ∈ entries, c.SettingOk s := by
  constructor
  · intro h s hs
    obtain ⟨before, after, hsplit⟩ := List.append_of_mem hs
    exact (settingOk_foldl_applied before c s).mp (h before s after hsplit)
  · intro h before s after hsplit
    apply (settingOk_foldl_applied before c s).mpr
    apply h
    rw [hsplit]
    exact List.mem_append_right _ List.mem_cons_self

/-- A legal SETTINGS frame of the client, and its entries: what the parser finds if the array it
copies them into is long enough. -/
structure LegalSettings (c : Connection) (f : Frame) (entries : List Setting) : Prop where
  parse : parseSettings f.header f.payload f.payload.length = .ok entries
  notAck : hasFlag f.flags flagAck = false
  length_le : f.payload.length ≤ c.maxFrameSize
  legal : c.LegalInTurn entries

theorem parseSettings_type {header : FrameHeader} {payload : List UInt8} {max : Nat}
    {settings : List Setting} (h : parseSettings header payload max = .ok settings) :
    header.type = FrameType.settings.toByte := by
  by_contra hne
  rw [parseSettings, if_pos hne] at h
  cases h

theorem validatePayload_settings {header : FrameHeader}
    (htype : header.type = FrameType.settings.toByte) (hvalid : validatePayload header = .ok)
    (hack : hasFlag header.flags flagAck = false) : header.length % 6 = 0 := by
  rw [validatePayload, htype, FrameType.ofByte?_toByte] at hvalid
  simp only [hack] at hvalid
  split_ifs at hvalid with h1 h2 h3
  · exact absurd h3 (by decide)
  · assumption

/-- The entries of a frame take six bytes each. -/
theorem parseSettings_length {header : FrameHeader} {payload : List UInt8} {max : Nat}
    {settings : List Setting} (h : parseSettings header payload max = .ok settings)
    (hack : hasFlag header.flags flagAck = false) : header.length = 6 * settings.length := by
  have htype := parseSettings_type h
  unfold parseSettings at h
  split_ifs at h with h1 h2 h3 h4
  · exact absurd (hack.symm.trans h3) (by decide)
  · obtain rfl := Except.ok.inj h
    have hsix := validatePayload_settings htype (not_not.mp h2) hack
    rw [List.length_map, List.length_range]
    omega

/-- **A legal SETTINGS frame**, with room for the acknowledgement. -/
theorem handleFrame_legalSettings (hc : Inv c) (hblock : c.headerBlockOpen = false)
    (hset : c.LegalSettings f entries) (hroom : c.Fits settingsAckFrame) :
    (entries.length ≤ 32 →
        c.handleFrame f = (.ok, (entries.foldl applied c).push settingsAckFrame))
      ∧ (32 < entries.length → (c.handleFrame f).1 = .internalError) := by
  obtain ⟨hparse, hack, hlen, hlegal⟩ := hset
  have hall := legalInTurn_iff.mp hlegal
  have hadmits : c.Admits f := ⟨hlen, fun h => absurd (hblock.symm.trans h.1) (by decide)⟩
  have hproc := processFrame_handler hadmits (parseSettings_type hparse)
  have hlimit := parseSettings_max hparse hack 32
  rw [handler] at hproc
  constructor
  · intro hfew
    rw [if_pos hfew] at hlimit
    rw [applySettings_ok hc hlimit hack hall, if_pos hroom] at hproc
    exact handleFrame_ok hproc
  · intro hmany
    rw [if_neg (not_le.mpr hmany)] at hlimit
    have hfail : c.applySettings f.header f.payload = (.internalError, c) := by
      rw [applySettings, hlimit]
    rw [hfail] at hproc
    rw [handleFrame_goaway hproc (by decide) (fun h => by cases h.1)]

end Connection

/-- **SETTINGS are applied whole and in order**: a legal frame is accepted, the settings and stream
windows are the left fold of its entries, and one acknowledgement is queued, exactly if the frame
has at most 32 entries. A longer frame fails with `H2_INTERNAL_ERROR`. -/
theorem settings_applied {ops : List Op} (hseen : (exec ops).conn.prefaceSeen = true)
    (hblock : (exec ops).conn.headerBlockOpen = false)
    {f : Frame} {entries : List Setting} (hset : (exec ops).conn.LegalSettings f entries)
    (hroom : (exec ops).conn.Fits settingsAckFrame) {data : List UInt8}
    (hwire : (exec ops).conn.input ++ data = f.wire) :
    ((exec ops).conn.feed data
        = (.ok, { (entries.foldl applied (exec ops).conn).push settingsAckFrame with input := [] })
      ↔ entries.length ≤ 32)
      ∧ (32 < entries.length → ((exec ops).conn.feed data).1 = .internalError) := by
  have hc := (exec_good ops).inv
  have hin := (exec_good ops).input_le
  generalize (exec ops).conn = c at *
  obtain ⟨hfew, hmany⟩ := handleFrame_legalSettings hc hblock hset hroom
  have hlen : f.payload.length = 6 * entries.length := parseSettings_length hset.parse hset.notAck
  have hfail : 32 < entries.length → (c.feed data).1 = .internalError := by
    intro h
    by_cases hfit : f.wire.length ≤ connInputCap
    · rw [(feed_completes hc hseen hwire hfit).1, hmany h]
    · -- the frame does not even fit the input buffer
      have hsum : c.input.length + data.length = f.wire.length := by
        rw [← List.length_append, hwire]
      rw [feed, if_pos (by omega)]
  refine ⟨⟨fun h => ?_, fun h => ?_⟩, hfail⟩
  · by_contra hno
    have hcode := hfail (not_le.mp hno)
    rw [h] at hcode
    cases hcode
  · have hfit : f.wire.length ≤ connInputCap := by
      rw [Frame.wire_length, hlen, frameHeaderLen, connInputCap]
      omega
    obtain ⟨hcode, hstate, hrest⟩ := feed_completes hc hseen hwire hfit
    rw [hfew h] at hcode hstate
    rw [hrest hcode] at hstate
    exact Prod.ext hcode hstate

/-- A SETTINGS frame whose entries have an identifier that is not in use. -/
def unknownSettings (n : Nat) : Frame :=
  Frame.of FrameType.settings.toByte 0 0 (List.replicate n [0, 0x99, 0, 0, 0, 0]).flatten

set_option maxRecDepth 20000 in
theorem unknownSettings_legal {c : Connection} (hmax : c.maxFrameSize = 16384) {n : Nat}
    (hn : n = 32 ∨ n = 33) :
    c.LegalSettings (unknownSettings n) (List.replicate n { id := 0x99, value := 0 }) := by
  have hlegal : c.LegalInTurn (List.replicate n { id := 0x99, value := 0 }) := by
    rw [legalInTurn_iff]
    intro s hs
    rw [List.eq_of_mem_replicate hs]
    exact trivial
  rcases hn with rfl | rfl
  · exact ⟨by decide, by decide, by rw [hmax]; decide, hlegal⟩
  · exact ⟨by decide, by decide, by rw [hmax]; decide, hlegal⟩

set_option maxRecDepth 20000 in
theorem settings_applied_unknown :
    ((exec prefaceOnly).conn.feed (unknownSettings 32).wire).1 = .ok := by
  obtain ⟨-, hseen, hinput, hmax, -⟩ := prefaceOnly_state
  have hblock : (exec prefaceOnly).conn.headerBlockOpen = false := by decide +kernel
  have hroom : (exec prefaceOnly).conn.Fits settingsAckFrame := by decide +kernel
  rw [(settings_applied hseen hblock (unknownSettings_legal hmax (Or.inl rfl)) hroom
    (congrArg (fun input => input ++ (unknownSettings 32).wire) hinput)).1.mpr (by decide)]

set_option maxRecDepth 20000 in
/-- One entry more than the local array has. -/
theorem settings_too_many : (exec prefaceOnly).AllOk ∧ (exec prefaceOnly).conn.headerBlockOpen = false
    ∧ (exec prefaceOnly).conn.LegalSettings (unknownSettings 33)
      (List.replicate 33 { id := 0x99, value := 0 })
    ∧ (exec prefaceOnly).conn.Fits settingsAckFrame
    ∧ ((exec prefaceOnly).conn.feed (unknownSettings 33).wire).1 = .internalError := by
  obtain ⟨hok, -, -, hmax, -⟩ := prefaceOnly_state
  exact ⟨hok, by decide +kernel, unknownSettings_legal hmax (Or.inr rfl), by decide +kernel,
    by decide +kernel⟩

end C11Omo.Http2
