import C11Omo.Http2.Queue

set_option autoImplicit false

/-! # SETTINGS

`h2_connection_apply_settings` works through the entries of a frame one by one. Seen from the
state before the frame, an entry is either acceptable or not (`SettingOk`), whatever acceptable
entries stand before it: a new initial window size moves every send window and the reference
value by the same amount. So a frame is accepted exactly if all its entries are
(`applySettingsLoop_ok`, `applySettingsLoop_fail`), and then only the last initial window size
and the last maximum frame size matter (`foldl_applied`).
-/

namespace C11Omo.Http2

open C11Omo.Lib Connection

/-- `int32_t` range of a send window. -/
def InRange (w : Int) : Prop := int32Min ≤ w ∧ w ≤ int32Max

instance (w : Int) : Decidable (InRange w) := inferInstanceAs (Decidable (_ ∧ _))

theorem inRange_iff (w : Int) : InRange w ↔ ¬ (w < int32Min ∨ w > int32Max) := by
  rw [InRange]
  omega

/-- A stream with its send window moved. -/
def Stream.shift (delta : Int) (s : Stream) : Stream :=
  { s with sendWindow := s.sendWindow + delta }

namespace Connection

/-! ## One new initial window size -/

section Shift

variable {delta : Int}

theorem shiftSendWindows_cons (pos : Fin connMaxStreams) (rest : List (Fin connMaxStreams))
    (c : Connection) : shiftSendWindows delta (pos :: rest) c
      = if live (c.streams pos) then
          if InRange ((c.streams pos).sendWindow + delta) then
            shiftSendWindows delta rest (c.setStream pos ((c.streams pos).shift delta))
          else (.flowControlError, c)
        else shiftSendWindows delta rest c := by
  rw [shiftSendWindows]
  by_cases hl : live (c.streams pos) = true
  · simp only [if_pos hl]
    by_cases hr : InRange ((c.streams pos).sendWindow + delta)
    · rw [if_pos hr, if_neg ((inRange_iff _).mp hr)]
      rfl
    · rw [if_neg hr, if_pos (not_not.mp fun h => hr ((inRange_iff _).mpr h))]
  · simp only [if_neg hl]

/-- Every live slot in the list has room for the shift: all of them are shifted. -/
theorem shiftSendWindows_ok {ps : List (Fin connMaxStreams)} (hnodup : ps.Nodup) {c : Connection}
    (h : ∀ i ∈ ps, live (c.streams i) → InRange ((c.streams i).sendWindow + delta)) :
    shiftSendWindows delta ps c
      = (.ok, { c with streams := fun i =>
          if i ∈ ps ∧ live (c.streams i) then (c.streams i).shift delta else c.streams i }) := by
  induction ps generalizing c with
  | nil => simp [shiftSendWindows]
  | cons pos rest ih =>
      obtain ⟨hpos, hrest⟩ := List.nodup_cons.mp hnodup
      have hne : ∀ i ∈ rest, i ≠ pos := fun i hi heq => hpos (heq ▸ hi)
      rw [shiftSendWindows_cons]
      -- the slot at the front is shifted once: it is not in the rest
      by_cases hl : live (c.streams pos) = true
      · have hstreams : ∀ i ∈ rest, (c.setStream pos ((c.streams pos).shift delta)).streams i
            = c.streams i := fun i hi => setStream_streams_ne c (hne i hi) _
        rw [if_pos hl, if_pos (h pos (by simp) hl), ih hrest fun i hi hli => by
          rw [hstreams i hi] at hli ⊢
          exact h i (List.mem_cons_of_mem _ hi) hli]
        congr 2
        funext i
        by_cases hi : i = pos
        · subst hi
          simp [hpos, hl]
        · rw [setStream_streams_ne c hi]
          simp [hi]
      · rw [if_neg hl, ih hrest fun i hi => h i (List.mem_cons_of_mem _ hi)]
        congr 2
        funext i
        by_cases hi : i = pos
        · subst hi
          simp [hpos, hl]
        · simp [hi]

/-- Some live slot in the list has no room for the shift. -/
theorem shiftSendWindows_fail {ps : List (Fin connMaxStreams)} (hnodup : ps.Nodup)
    {c : Connection}
    (h : ∃ i ∈ ps, live (c.streams i) ∧ ¬ InRange ((c.streams i).sendWindow + delta)) :
    (shiftSendWindows delta ps c).1 = .flowControlError := by
  induction ps generalizing c with
  | nil =>
      obtain ⟨i, hi, -⟩ := h
      exact absurd hi List.not_mem_nil
  | cons pos rest ih =>
      obtain ⟨hpos, hrest⟩ := List.nodup_cons.mp hnodup
      obtain ⟨i, hi, hli, hri⟩ := h
      rw [shiftSendWindows_cons]
      by_cases hl : live (c.streams pos) = true
      · rw [if_pos hl]
        by_cases hr : InRange ((c.streams pos).sendWindow + delta)
        · -- the failing slot is a later one, and this shift does not touch it
          have hip : i ≠ pos := by rintro rfl; exact hri hr
          have hi' : i ∈ rest := (List.mem_cons.mp hi).resolve_left hip
          rw [if_pos hr]
          refine ih hrest ⟨i, hi', ?_⟩
          rw [setStream_streams_ne c hip]
          exact ⟨hli, hri⟩
        · rw [if_neg hr]
      · have hip : i ≠ pos := by rintro rfl; exact hl hli
        rw [if_neg hl]
        exact ih hrest ⟨i, (List.mem_cons.mp hi).resolve_left hip, hli, hri⟩

/-- If already the first live slot has no room for the shift, nothing is changed. -/
theorem shiftSendWindows_first {ps : List (Fin connMaxStreams)} {c : Connection}
    {pos : Fin connMaxStreams} (hfirst : ps.find? (fun i => live (c.streams i)) = some pos)
    (h : ¬ InRange ((c.streams pos).sendWindow + delta)) :
    shiftSendWindows delta ps c = (.flowControlError, c) := by
  induction ps with
  | nil => simp at hfirst
  | cons p rest ih =>
      rw [shiftSendWindows_cons]
      by_cases hl : live (c.streams p) = true
      · simp only [List.find?_cons, hl, Option.some.injEq] at hfirst
        rw [if_pos hl, hfirst, if_neg h]
      · simp only [List.find?_cons, hl] at hfirst
        rw [if_neg hl]
        exact ih hfirst

/-- In any case the windows are shifted one by one. -/
theorem shiftSendWindows_acts (ps : List (Fin connMaxStreams)) (c : Connection) :
    ∃ es, Acts c es (shiftSendWindows delta ps c).2 := by
  induction ps generalizing c with
  | nil => exact ⟨[], .refl c⟩
  | cons pos rest ih =>
      rw [shiftSendWindows_cons]
      split
      · split
        · next hr =>
            obtain ⟨es, hes⟩ := ih (c.setStream pos ((c.streams pos).shift delta))
            exact ⟨_, .head (.shiftOne c pos _ hr) hes⟩
        · exact ⟨[], .refl c⟩
      · exact ih c

end Shift

/-! ## One entry -/

/-- An entry that the state accepts. -/
def SettingOk (c : Connection) (setting : Setting) : Prop :=
  if setting.id = settingsEnablePush then setting.value ≤ 1
  else if setting.id = settingsInitialWindowSize then
    (setting.value : Int) ≤ int32Max ∧ ∀ i, live (c.streams i) →
      InRange ((c.streams i).sendWindow + (setting.value - c.initialStreamWindow))
  else if setting.id = settingsMaxFrameSize then
    defaultMaxFrameSize ≤ setting.value ∧ setting.value ≤ maxFrameSizeLimit
  else True

instance (c : Connection) (setting : Setting) : Decidable (c.SettingOk setting) := by
  unfold SettingOk
  infer_instance

/-- The state after an accepted entry. -/
def applied (c : Connection) (setting : Setting) : Connection :=
  if setting.id = settingsInitialWindowSize then c.resizeWindows setting.value
  else if setting.id = settingsMaxFrameSize then { c with maxFrameSize := setting.value }
  else c

theorem applySetting_ok {c : Connection} {setting : Setting} (h : c.SettingOk setting) :
    c.applySetting setting = (.ok, c.applied setting) := by
  rw [applySetting, applied]
  rw [SettingOk] at h
  by_cases h1 : setting.id = settingsEnablePush
  · rw [if_pos h1] at h ⊢
    rw [if_neg (by omega), if_neg (by rw [h1]; decide), if_neg (by rw [h1]; decide)]
  · rw [if_neg h1] at h ⊢
    by_cases h2 : setting.id = settingsInitialWindowSize
    · rw [if_pos h2] at h
      rw [if_pos h2, if_pos h2, if_neg (by omega),
        shiftSendWindows_ok (List.nodup_finRange _) fun i _ hl => h.2 i hl]
      simp [andThen, resizeWindows, Stream.shift]
    · rw [if_neg h2] at h
      rw [if_neg h2, if_neg h2]
      by_cases h3 : setting.id = settingsMaxFrameSize
      · rw [if_pos h3] at h
        rw [if_pos h3, if_pos h3, if_neg (by omega)]
      · rw [if_neg h3, if_neg h3]

/-- An entry that is not accepted. The state is unchanged, unless some send window overflows
that is not the first one. -/
theorem applySetting_fail {c : Connection} {setting : Setting} (h : ¬ c.SettingOk setting) :
    ((c.applySetting setting).1 = .protocolError ∨ (c.applySetting setting).1 = .flowControlError)
      ∧ ∃ es, Acts c es (c.applySetting setting).2 := by
  rw [applySetting]
  rw [SettingOk] at h
  -- only three identifiers are ever rejected
  by_cases h1 : setting.id = settingsEnablePush
  · rw [if_pos h1] at h ⊢
    rw [if_pos (by omega)]
    exact ⟨Or.inl rfl, [], .refl c⟩
  · rw [if_neg h1] at h ⊢
    by_cases h2 : setting.id = settingsInitialWindowSize
    · rw [if_pos h2] at h ⊢
      by_cases hbig : (setting.value : Int) > int32Max
      · rw [if_pos hbig]
        exact ⟨Or.inr rfl, [], .refl c⟩
      · -- some live window would leave its range, and the loop stops there
        have hslot : ∃ i ∈ List.finRange connMaxStreams, live (c.streams i)
            ∧ ¬ InRange ((c.streams i).sendWindow + (setting.value - c.initialStreamWindow)) := by
          by_contra hno
          push Not at hno
          exact h ⟨not_lt.mp hbig, fun i hl => hno i (List.mem_finRange i) hl⟩
        have hfail := shiftSendWindows_fail (List.nodup_finRange _) hslot
        obtain ⟨es, hes⟩ := @shiftSendWindows_acts (setting.value - c.initialStreamWindow)
          (List.finRange connMaxStreams) c
        rw [if_neg hbig]
        rcases hres : shiftSendWindows (setting.value - c.initialStreamWindow)
          (List.finRange connMaxStreams) c with ⟨ret, c₁⟩
        rw [hres] at hfail hes
        obtain rfl : ret = .flowControlError := hfail
        exact ⟨Or.inr rfl, es, hes⟩
    · rw [if_neg h2] at h ⊢
      by_cases h3 : setting.id = settingsMaxFrameSize
      · rw [if_pos h3] at h ⊢
        rw [if_pos (by omega)]
        exact ⟨Or.inl rfl, [], .refl c⟩
      · rw [if_neg h3] at h
        exact absurd trivial h

/-- What an accepted entry leaves in the history. -/
def settingEvents (setting : Setting) : List Event :=
  if setting.id = settingsInitialWindowSize then [.resized setting.value] else []

theorem applied_acts {c : Connection} {setting : Setting} (h : c.SettingOk setting) :
    Acts c (settingEvents setting) (c.applied setting) := by
  rw [applied, settingEvents]
  rw [SettingOk] at h
  by_cases h2 : setting.id = settingsInitialWindowSize
  · rw [if_neg (by rw [h2]; decide), if_pos h2] at h
    rw [if_pos h2, if_pos h2]
    exact .single (.resize c _ ⟨Int.natCast_nonneg _, h.1⟩ h.2)
  · rw [if_neg h2, if_neg h2]
    by_cases h3 : setting.id = settingsMaxFrameSize
    · rw [if_neg (by rw [h3]; decide), if_neg h2, if_pos h3] at h
      rw [if_pos h3]
      exact .single (.maxFrame c _ h)
    · rw [if_neg h3]
      exact .refl c

/-! ## All entries -/

@[simp] theorem live_setSendWindow (s : Stream) (w : Int) :
    live { s with sendWindow := w } = live s := rfl

@[simp] theorem live_resizeWindows (c : Connection) (value : Int) (i : Fin connMaxStreams) :
    live ((c.resizeWindows value).streams i) = live (c.streams i) := by
  simp only [resizeWindows]
  split <;> rfl

theorem resizeWindows_sendWindow (c : Connection) (value : Int) {i : Fin connMaxStreams}
    (hl : live (c.streams i) = true) : ((c.resizeWindows value).streams i).sendWindow
      = (c.streams i).sendWindow + (value - c.initialStreamWindow) := by
  simp only [resizeWindows, if_pos hl]

/-- Where a live slot would get with another initial window size does not depend on the one that it
has now. -/
theorem resizeWindows_offset (c : Connection) (value : Int) (w : Int) {i : Fin connMaxStreams}
    (hl : live (c.streams i) = true) : ((c.resizeWindows value).streams i).sendWindow
        + (w - (c.resizeWindows value).initialStreamWindow)
      = (c.streams i).sendWindow + (w - c.initialStreamWindow) := by
  have hinitial : (c.resizeWindows value).initialStreamWindow = value := rfl
  rw [resizeWindows_sendWindow c _ hl, hinitial]
  omega

/-- Only the last of two initial window sizes matters. -/
theorem resizeWindows_resizeWindows (c : Connection) (v w : Int) :
    (c.resizeWindows v).resizeWindows w = c.resizeWindows w := by
  simp only [resizeWindows, Connection.mk.injEq, true_and, and_true]
  funext i
  by_cases hl : live (c.streams i) = true
  · have hl' : live { c.streams i with
        sendWindow := (c.streams i).sendWindow + (v - c.initialStreamWindow) } = true := hl
    simp only [if_pos hl, if_pos hl']
    congr 1
    omega
  · simp only [if_neg hl]

theorem resizeWindows_self (c : Connection) : c.resizeWindows c.initialStreamWindow = c := by
  simp [resizeWindows]

/-- An accepted entry does not change which entries are acceptable. -/
theorem settingOk_applied (c : Connection) (s t : Setting) :
    (c.applied s).SettingOk t ↔ c.SettingOk t := by
  rw [applied]
  by_cases h1 : s.id = settingsInitialWindowSize
  · rw [if_pos h1, SettingOk, SettingOk]
    have hwin : ∀ i, (live ((c.resizeWindows s.value).streams i) →
          InRange (((c.resizeWindows s.value).streams i).sendWindow
            + (t.value - (c.resizeWindows s.value).initialStreamWindow)))
        ↔ (live (c.streams i) →
          InRange ((c.streams i).sendWindow + (t.value - c.initialStreamWindow))) := by
      intro i
      rw [live_resizeWindows]
      refine imp_congr_right fun hl => ?_
      rw [resizeWindows_offset c _ _ hl]
    simp only [hwin]
  · rw [if_neg h1]
    by_cases h2 : s.id = settingsMaxFrameSize
    · rw [if_pos h2]
      rfl
    · rw [if_neg h2]

theorem settingOk_foldl_applied (settings : List Setting) (c : Connection) (t : Setting) :
    (settings.foldl applied c).SettingOk t ↔ c.SettingOk t := by
  induction settings generalizing c with
  | nil => rfl
  | cons s rest ih => rw [List.foldl_cons, ih, settingOk_applied]

/-- **A frame whose entries are all acceptable in the state before it is applied whole.** -/
theorem applySettingsLoop_ok {c : Connection} {settings : List Setting}
    (h : ∀ s ∈ settings, c.SettingOk s) :
    applySettingsLoop settings c = (.ok, settings.foldl applied c) := by
  induction settings generalizing c with
  | nil => rfl
  | cons s rest ih =>
      have hs := h s (by simp)
      rw [applySettingsLoop, applySetting_ok hs, andThen_ok, List.foldl_cons]
      exact ih fun t ht => (settingOk_applied c s t).mpr (h t (List.mem_cons_of_mem _ ht))

/-- Otherwise it stops at the first entry that is not. -/
theorem applySettingsLoop_stop {c : Connection} {before rest : List Setting} {s : Setting}
    (h : ∀ t ∈ before, c.SettingOk t) (hs : ¬ c.SettingOk s) :
    applySettingsLoop (before ++ s :: rest) c = (before.foldl applied c).applySetting s := by
  induction before generalizing c with
  | nil =>
      have herr := (applySetting_fail hs).1
      rw [List.nil_append, applySettingsLoop, List.foldl_nil]
      rcases hres : c.applySetting s with ⟨ret, c₁⟩
      rw [hres] at herr
      refine andThen_err ?_ _ _
      rintro rfl
      rcases herr with herr | herr <;> cases herr
  | cons t before ih =>
      have ht := h t (by simp)
      rw [List.cons_append, applySettingsLoop, applySetting_ok ht, andThen_ok, List.foldl_cons]
      refine ih (fun u hu => (settingOk_applied c t u).mpr (h u (List.mem_cons_of_mem _ hu))) ?_
      rwa [settingOk_applied]

/-- The first entry that the state does not accept. -/
theorem settings_split (c : Connection) (settings : List Setting) :
    (∀ s ∈ settings, c.SettingOk s) ∨ ∃ before s rest, settings = before ++ s :: rest ∧
      (∀ t ∈ before, c.SettingOk t) ∧ ¬ c.SettingOk s := by
  induction settings with
  | nil => exact Or.inl (by simp)
  | cons s rest ih =>
      by_cases hs : c.SettingOk s
      · rcases ih with ih | ⟨before, t, rest', rfl, hb, ht⟩
        · exact Or.inl (List.forall_mem_cons.mpr ⟨hs, ih⟩)
        · exact Or.inr ⟨s :: before, t, rest', rfl, List.forall_mem_cons.mpr ⟨hs, hb⟩, ht⟩
      · exact Or.inr ⟨[], s, rest, rfl, by simp, hs⟩

theorem foldl_applied_acts {c : Connection} {settings : List Setting}
    (h : ∀ s ∈ settings, c.SettingOk s) :
    Acts c (settings.flatMap settingEvents) (settings.foldl applied c) := by
  induction settings generalizing c with
  | nil => exact .refl c
  | cons s rest ih =>
      rw [List.foldl_cons, List.flatMap_cons]
      exact (applied_acts (h s (by simp))).trans
        (ih fun t ht => (settingOk_applied c s t).mpr (h t (List.mem_cons_of_mem _ ht)))

/-! ## What a frame leaves behind -/

/-- The last entry for `id`, or `d` if there is none. -/
def lastValue (id : Nat) (settings : List Setting) (d : Int) : Int :=
  settings.foldl (fun v s => if s.id = id then (s.value : Int) else v) d

/-- **Only the last initial window size and the last maximum frame size of a frame matter.** -/
theorem foldl_applied (settings : List Setting) (c : Connection) :
    settings.foldl applied c
      = { c.resizeWindows (lastValue settingsInitialWindowSize settings c.initialStreamWindow) with
          maxFrameSize := (lastValue settingsMaxFrameSize settings c.maxFrameSize).toNat } := by
  induction settings generalizing c with
  | nil =>
      show c = { c.resizeWindows c.initialStreamWindow with
        maxFrameSize := (c.maxFrameSize : Int).toNat }
      rw [resizeWindows_self, Int.toNat_natCast]
  | cons s rest ih =>
      rw [List.foldl_cons, ih, lastValue, lastValue, lastValue, lastValue, List.foldl_cons,
        List.foldl_cons, applied]
      by_cases h1 : s.id = settingsInitialWindowSize
      · have h2 : ¬ s.id = settingsMaxFrameSize := by rw [h1]; decide
        simp only [if_pos h1, if_neg h2]
        rw [resizeWindows_resizeWindows]
        rfl
      · by_cases h2 : s.id = settingsMaxFrameSize
        · simp only [if_neg h1, if_pos h2]
          rfl
        · simp only [if_neg h1, if_neg h2]

/-- A list of entries sets a value whose last entry it is already. -/
theorem lastValue_lastValue (id : Nat) (settings : List Setting) (d : Int) :
    lastValue id settings (lastValue id settings d) = lastValue id settings d := by
  induction settings generalizing d with
  | nil => rfl
  | cons s rest ih =>
      rw [lastValue, lastValue, List.foldl_cons, List.foldl_cons]
      by_cases h : s.id = id
      · rw [if_pos h]
        simp [h]
      · rw [if_neg h, if_neg h]
        exact ih d

/-! ## The frame -/

theorem queueSettingsAck_eq {c : Connection} (hc : Inv c) :
    c.queueSettingsAck
      = if c.Fits settingsAckFrame then (.ok, c.push settingsAckFrame) else (.internalError, c) := by
  rw [queueSettingsAck, encodeSettings_ack_eq, queueWire_wire hc]

theorem foldl_applied_inv {c : Connection} (hc : Inv c) {settings : List Setting}
    (h : ∀ s ∈ settings, c.SettingOk s) : Inv (settings.foldl applied c) :=
  (foldl_applied_acts h).inv hc

/-- The output is not touched by the entries. -/
theorem foldl_applied_output (settings : List Setting) (c : Connection) :
    (settings.foldl applied c).output = c.output := by
  rw [foldl_applied]
  rfl

/-- A SETTINGS frame with acceptable entries only. -/
theorem applySettings_ok {c : Connection} (hc : Inv c) {header : FrameHeader}
    {payload : List UInt8} {settings : List Setting}
    (hparse : parseSettings header payload 32 = .ok settings)
    (hack : hasFlag header.flags flagAck = false) (h : ∀ s ∈ settings, c.SettingOk s) :
    c.applySettings header payload
      = if c.Fits settingsAckFrame then (.ok, (settings.foldl applied c).push settingsAckFrame)
        else (.internalError, settings.foldl applied c) := by
  have hfit : (settings.foldl applied c).Fits settingsAckFrame ↔ c.Fits settingsAckFrame := by
    rw [Fits, Fits, foldl_applied_output]
  rw [applySettings, hparse]
  simp only [hack]
  rw [if_neg (by simp), applySettingsLoop_ok h, andThen_ok,
    queueSettingsAck_eq (foldl_applied_inv hc h)]
  by_cases hf : c.Fits settingsAckFrame
  · rw [if_pos hf, if_pos (hfit.mpr hf)]
  · rw [if_neg hf, if_neg (mt hfit.mp hf)]


theorem parseSettings_error {header : FrameHeader} {payload : List UInt8} {maxSettings : Nat}
    {ret : ErrorCode} (h : parseSettings header payload maxSettings = .error ret) :
    ret = .protocolError ∨ ret = .frameSizeError ∨ ret = .internalError := by
  have hcases := validatePayload_cases header
  unfold parseSettings at h
  split_ifs at h with h1 h2
  · cases h
    simp
  · cases h
    rcases hcases with hv | hv | hv
    · exact absurd hv h2
    · simp [hv]
    · simp [hv]
  · cases h
    simp

/-- More entries than the server can hold are an internal error. -/
theorem parseSettings_max {header : FrameHeader} {payload : List UInt8} {settings : List Setting}
    {max : Nat} (h : parseSettings header payload max = .ok settings)
    (hack : hasFlag header.flags flagAck = false) (max' : Nat) :
    parseSettings header payload max'
      = if settings.length ≤ max' then .ok settings else .error .internalError := by
  unfold parseSettings at h ⊢
  have hack' : ¬ hasFlag header.flags flagAck = true := by simp [hack]
  rw [if_neg hack'] at h ⊢
  split_ifs at h with htype hvalid hmax
  obtain rfl := Except.ok.inj h
  rw [if_neg htype, if_neg hvalid, List.length_map, List.length_range]
  by_cases hlen : header.length / 6 > max'
  · rw [if_pos hlen, if_neg (not_le.mpr hlen)]
  · rw [if_neg hlen, if_pos (not_lt.mp hlen)]

/-- What an accepted SETTINGS frame leaves in the history, apart from queued frames. -/
def settingsEvents (header : FrameHeader) (payload : List UInt8) : List Event :=
  match parseSettings header payload 32 with
  | .error _ => []
  | .ok settings => settings.flatMap settingEvents

/-- The actions of a SETTINGS frame: it is never a stream error. -/
theorem applySettings_acts {c : Connection} (hc : Inv c) (header : FrameHeader)
    (payload : List UInt8) : ∃ es, Acts c es (c.applySettings header payload).2
      ∧ ((c.applySettings header payload).1 = .ok →
          ∃ q, es = settingsEvents header payload ++ q ∧ Quiet q)
      ∧ isStreamError (c.applySettings header payload).1 = false := by
  rw [settingsEvents]
  rcases hparse : parseSettings header payload 32 with ret | settings
  · rw [applySettings, hparse]
    refine ⟨[], .refl c, fun _ => ⟨[], rfl, .nil⟩, ?_⟩
    rcases parseSettings_error hparse with rfl | rfl | rfl <;> rfl
  · by_cases hack : hasFlag header.flags flagAck = true
    · obtain rfl : settings = [] := by
        unfold parseSettings at hparse
        split_ifs at hparse
        exact (Except.ok.inj hparse).symm
      rw [applySettings, hparse]
      simp only [if_pos hack]
      exact ⟨[], .refl c, fun _ => ⟨[], rfl, .nil⟩, rfl⟩
    · rw [Bool.not_eq_true] at hack
      -- all entries are acceptable, or a first one is not, and those before it are applied
      rcases settings_split c settings with hok | ⟨before, s, rest, rfl, hbefore, hs⟩
      · have hacts := foldl_applied_acts hok
        rw [applySettings_ok hc hparse hack hok]
        by_cases hf : c.Fits settingsAckFrame
        · have hf' : (settings.foldl applied c).Fits settingsAckFrame := by
            rw [Fits, foldl_applied_output]
            exact hf
          rw [if_pos hf]
          exact ⟨settings.flatMap settingEvents ++ [.queued settingsAckFrame],
            hacts.trans (.single (.control _ _ (control_of (by simp) _ _ _) hf')),
            fun _ => ⟨_, rfl, .queued (by decide)⟩, rfl⟩
        · rw [if_neg hf]
          exact ⟨_, hacts, by simp, rfl⟩
      · have hs' : ¬ (before.foldl applied c).SettingOk s := by
          rwa [settingOk_foldl_applied]
        obtain ⟨herr, es, hes⟩ := applySetting_fail hs'
        rw [applySettings, hparse]
        simp only [hack]
        rw [if_neg (by simp), applySettingsLoop_stop hbefore hs]
        rcases hres : (before.foldl applied c).applySetting s with ⟨ret, c₁⟩
        rw [hres] at herr hes
        have hacts := (foldl_applied_acts hbefore).trans hes
        rcases herr with herr | herr
        · obtain rfl : ret = .protocolError := herr
          exact ⟨_, hacts, by simp [andThen], rfl⟩
        · obtain rfl : ret = .flowControlError := herr
          exact ⟨_, hacts, by simp [andThen], rfl⟩

/-- **An accepted SETTINGS frame**: an acknowledgement changes nothing, and a frame with settings
applies all of them and queues the acknowledgement. -/
theorem applySettings_of_ok {c : Connection} (hc : Inv c) {header : FrameHeader}
    {payload : List UInt8} (hok : (c.applySettings header payload).1 = .ok) :
    ∃ settings, parseSettings header payload 32 = .ok settings ∧
      (hasFlag header.flags flagAck = true ∧ settings = []
          ∧ (c.applySettings header payload).2 = c
        ∨ hasFlag header.flags flagAck = false ∧ (∀ s ∈ settings, c.SettingOk s)
          ∧ (c.applySettings header payload).2
            = (settings.foldl applied c).push settingsAckFrame) := by
  rcases hparse : parseSettings header payload 32 with ret | settings
  · rw [applySettings, hparse] at hok
    obtain rfl : ret = .ok := hok
    rcases parseSettings_error hparse with h | h | h <;> cases h
  · refine ⟨settings, rfl, ?_⟩
    by_cases hack : hasFlag header.flags flagAck = true
    · have hnil : settings = [] := by
        unfold parseSettings at hparse
        split_ifs at hparse
        exact (Except.ok.inj hparse).symm
      refine Or.inl ⟨hack, hnil, ?_⟩
      rw [applySettings, hparse]
      simp only [if_pos hack]
    · rw [Bool.not_eq_true] at hack
      refine Or.inr ⟨hack, ?_⟩
      rcases settings_split c settings with hall | ⟨before, s, rest, rfl, hbefore, hs⟩
      · rw [applySettings_ok hc hparse hack hall] at hok ⊢
        by_cases hf : c.Fits settingsAckFrame
        · rw [if_pos hf]
          exact ⟨hall, rfl⟩
        · rw [if_neg hf] at hok
          cases hok
      · have hs' : ¬ (before.foldl applied c).SettingOk s := by
          rwa [settingOk_foldl_applied]
        have herr := (applySetting_fail hs').1
        rw [applySettings, hparse] at hok
        simp only [hack] at hok
        rw [if_neg (by simp), applySettingsLoop_stop hbefore hs] at hok
        rcases hres : (before.foldl applied c).applySetting s with ⟨ret, c₁⟩
        rw [hres] at herr hok
        rcases herr with herr | herr
        · obtain rfl : ret = .protocolError := herr
          cases hok
        · obtain rfl : ret = .flowControlError := herr
          cases hok

end Connection

end C11Omo.Http2
