import C11Omo.Http2.CheckedHpack
import C11Omo.Lib.PrefixInt

set_option autoImplicit false

/-! # HPACK integers

`h2_hpack_decode_integer` and `h2_hpack_encode_integer` against the definition of a prefix integer
in `Lib.PrefixInt`. The four checks of the decoder's loop come down to two: at most five
octets, and a sum of at most `2 ^ 32 - 1` (`decodeIntegerLoop_cons`). So the decoder accepts exactly
the prefix integers within these bounds (`decodeInteger_exact`), and the encoder writes the shortest
one if it fits (`encodeInteger_eq`).
-/

namespace C11Omo.Http2

open C11Omo.Lib

/-! ## Decoding -/

/-- **One octet of a continuation**: the checks on the digit and on the sum are one check on the
sum. -/
theorem decodeIntegerLoop_cons (byte : UInt8) (rest : List UInt8) {pos result : Nat}
    (hpos : 1 ≤ pos) (hresult : result ≤ 0xffffffff) :
    decodeIntegerLoop (byte :: rest) pos (7 * (pos - 1)) result
      = if pos > 5 ∨ result + byte.toNat % 128 * 2 ^ (7 * (pos - 1)) > 0xffffffff then
          .error .compressionError
        else if byte.toNat < 128 then
          .ok (result + byte.toNat % 128 * 2 ^ (7 * (pos - 1)), pos + 1)
        else
          decodeIntegerLoop rest (pos + 1) (7 * (pos + 1 - 1))
            (result + byte.toNat % 128 * 2 ^ (7 * (pos - 1))) := by
  have hnext : 7 * (pos - 1) + 7 = 7 * (pos + 1 - 1) := by omega
  rw [decodeIntegerLoop, Checked.and_127, Nat.shiftLeft_eq, hnext]
  simp only [and_128_eq_zero byte.toNat_lt]
  by_cases hlong : pos > 5
  · rw [if_pos hlong, if_pos (Or.inl hlong)]
  · have hs : ¬ 7 * (pos - 1) ≥ 32 := by omega
    rw [if_neg hlong, if_neg hs]
    generalize 7 * (pos - 1) = shift
    generalize byte.toNat % 128 = digit
    -- the test before the shift says that the shifted digit does not fit
    have hdigit : digit > 0xffffffff >>> shift ↔ digit * 2 ^ shift > 0xffffffff := by
      rw [Nat.shiftRight_eq_div_pow, gt_iff_lt, gt_iff_lt,
        Nat.div_lt_iff_lt_mul (Nat.two_pow_pos shift)]
    by_cases hbig : digit > 0xffffffff >>> shift
    · have := hdigit.mp hbig
      rw [if_pos hbig, if_pos (by omega)]
    · have := mt hdigit.mpr hbig
      rw [if_neg hbig]
      by_cases hsum : result > 0xffffffff - digit * 2 ^ shift
      · rw [if_pos hsum, if_pos (by omega)]
      · have hok : ¬ (pos > 5 ∨ result + digit * 2 ^ shift > 0xffffffff) := by omega
        rw [if_neg hsum, if_neg hok]

/-- **The loop accepts the continuations** of at most five octets whose number, added to the prefix,
fits 32 bits. -/
theorem decodeIntegerLoop_exact {bytes : List UInt8} {pos result value used : Nat}
    (hpos : 1 ≤ pos) (hresult : result ≤ 0xffffffff) :
    decodeIntegerLoop bytes pos (7 * (pos - 1)) result = .ok (value, used)
      ↔ ∃ cont rest v, bytes = cont ++ rest ∧ Continuation cont v ∧ used = pos + cont.length
        ∧ used ≤ 6 ∧ value = result + v * 2 ^ (7 * (pos - 1)) ∧ value ≤ 0xffffffff := by
  induction bytes generalizing pos result with
  | nil =>
      constructor
      · intro h
        cases h
      · rintro ⟨cont, rest, v, hbytes, hcont, -⟩
        have hlen := hcont.length_pos
        rw [(List.append_eq_nil_iff.mp hbytes.symm).1] at hlen
        exact absurd hlen (lt_irrefl 0)
  | cons byte bytes ih =>
      rw [decodeIntegerLoop_cons byte bytes hpos hresult]
      -- a continuation of these bytes starts with the first one
      have hsplit : ∀ {cont rest : List UInt8} {v : Nat}, byte :: bytes = cont ++ rest →
          Continuation cont v → ∃ tail, cont = byte :: tail ∧ bytes = tail ++ rest := by
        intro cont rest v hbytes hcont
        cases cont with
        | nil => exact absurd hcont.length_pos (lt_irrefl 0)
        | cons b tail =>
            obtain ⟨rfl, hrest⟩ := List.cons.inj hbytes
            exact ⟨tail, rfl, hrest⟩
      have hpow : (2 : Nat) ^ (7 * (pos + 1 - 1)) = 128 * 2 ^ (7 * (pos - 1)) := by
        rw [show 7 * (pos + 1 - 1) = 7 + 7 * (pos - 1) by omega, pow_add]
        norm_num
      generalize hscale : (2 : Nat) ^ (7 * (pos - 1)) = scale at hpow ⊢
      by_cases hbad : pos > 5 ∨ result + byte.toNat % 128 * scale > 0xffffffff
      · rw [if_pos hbad]
        constructor
        · intro h
          cases h
        · rintro ⟨cont, rest, v, hbytes, hcont, rfl, hused, rfl, hvalue⟩
          have hlen := hcont.length_pos
          rcases hbad with hlong | hsum
          · omega
          · -- the first digit alone is too large
            obtain ⟨tail, rfl, -⟩ := hsplit hbytes hcont
            have hdigit : byte.toNat % 128 ≤ v := by
              by_cases hlow : byte.toNat < 128
              · rw [((Continuation.cons_low_iff hlow).mp hcont).2]
                exact Nat.mod_le _ _
              · obtain ⟨w, -, rfl⟩ := (Continuation.cons_high_iff (not_lt.mp hlow)).mp hcont
                exact Nat.le_add_right _ _
            have hmul := Nat.mul_le_mul_right scale hdigit
            omega
      · rw [if_neg hbad]
        obtain ⟨hshort, hsum⟩ := not_or.mp hbad
        by_cases hlow : byte.toNat < 128
        · rw [if_pos hlow, Except.ok.injEq, Prod.mk.injEq]
          have hmod : byte.toNat % 128 = byte.toNat := Nat.mod_eq_of_lt hlow
          rw [hmod] at hsum ⊢
          constructor
          · rintro ⟨rfl, rfl⟩
            exact ⟨[byte], bytes, byte.toNat, rfl, .last byte hlow, rfl, by omega, rfl,
              not_lt.mp hsum⟩
          · rintro ⟨cont, rest, v, hbytes, hcont, rfl, -, rfl, -⟩
            obtain ⟨tail, rfl, -⟩ := hsplit hbytes hcont
            obtain ⟨rfl, rfl⟩ := (Continuation.cons_low_iff hlow).mp hcont
            exact ⟨rfl, rfl⟩
        · have hhigh : 128 ≤ byte.toNat := not_lt.mp hlow
          rw [if_neg hlow, ih (by omega) (not_lt.mp hsum), hpow]
          constructor
          · rintro ⟨cont, rest, v, rfl, hcont, rfl, hused, rfl, hvalue⟩
            refine ⟨byte :: cont, rest, byte.toNat % 128 + 128 * v, rfl, .more byte hhigh hcont,
              ?_, hused, ?_, hvalue⟩
            · rw [List.length_cons]
              omega
            · ring
          · rintro ⟨cont, rest, v, hbytes, hcont, rfl, hused, rfl, hvalue⟩
            obtain ⟨tail, rfl, rfl⟩ := hsplit hbytes hcont
            obtain ⟨w, hrest, rfl⟩ := (Continuation.cons_high_iff hhigh).mp hcont
            rw [List.length_cons] at hused ⊢
            exact ⟨tail, rest, w, rfl, hrest, by omega, hused, by ring, hvalue⟩

theorem decodeInteger_cons (first : UInt8) (rest : List UInt8) {prefixBits : Nat}
    (h1 : 1 ≤ prefixBits) (h8 : prefixBits ≤ 8) : decodeInteger (first :: rest) prefixBits
      = if first.toNat % 2 ^ prefixBits < 2 ^ prefixBits - 1 then
          .ok (first.toNat % 2 ^ prefixBits, 1)
        else decodeIntegerLoop rest 1 0 (first.toNat % 2 ^ prefixBits) := by
  have hbits : ¬ (prefixBits = 0 ∨ prefixBits > 8) := by omega
  rw [decodeInteger, if_neg hbits]
  simp only [(Checked.prefixMax_eq h8).1, Nat.and_two_pow_sub_one_eq_mod]

theorem decodeIntegerLoop_error {bytes : List UInt8} {pos shift result : Nat} {ret : ErrorCode}
    (h : decodeIntegerLoop bytes pos shift result = .error ret) : ret = .compressionError := by
  induction bytes generalizing pos shift result with
  | nil =>
      cases h
      rfl
  | cons byte bytes ih =>
      rw [decodeIntegerLoop] at h
      split_ifs at h
      all_goals first | exact ih h | (cases h; rfl)

theorem decodeInteger_error {wire : List UInt8} {prefixBits : Nat} {ret : ErrorCode}
    (h : decodeInteger wire prefixBits = .error ret) : ret = .compressionError := by
  cases wire with
  | nil =>
      cases h
      rfl
  | cons first rest =>
      rw [decodeInteger] at h
      simp only at h
      split_ifs at h
      · cases h
        rfl
      · exact decodeIntegerLoop_error h

/-- **What the decoder accepts**: a prefix integer of at most six octets with a value of at most
32 bits, whatever follows it. -/
theorem decodeInteger_ok_iff {wire : List UInt8} {prefixBits value used : Nat}
    (h1 : 1 ≤ prefixBits) (h8 : prefixBits ≤ 8) :
    decodeInteger wire prefixBits = .ok (value, used)
      ↔ ∃ octets rest, wire = octets ++ rest ∧ octets.length = used ∧ used ≤ 6
        ∧ PrefixInt prefixBits octets value ∧ value ≤ 0xffffffff := by
  have hpow : 2 ^ prefixBits ≤ 2 ^ 8 := Nat.pow_le_pow_right (by decide) h8
  have hpos : 0 < 2 ^ prefixBits := Nat.two_pow_pos prefixBits
  cases wire with
  | nil =>
      constructor
      · intro h
        cases h
      · rintro ⟨octets, rest, hwire, -, -, hint, -⟩
        have hlen := hint.length_pos
        rw [(List.append_eq_nil_iff.mp hwire.symm).1] at hlen
        exact absurd hlen (lt_irrefl 0)
  | cons first wire =>
      rw [decodeInteger_cons first wire h1 h8]
      have hmod := Nat.mod_lt first.toNat hpos
      -- a prefix integer of these octets starts with the first one
      have hsplit : ∀ {octets rest : List UInt8} {v : Nat}, first :: wire = octets ++ rest →
          PrefixInt prefixBits octets v → ∃ tail, octets = first :: tail ∧ wire = tail ++ rest := by
        intro octets rest v hwire hint
        cases octets with
        | nil => exact absurd hint.length_pos (lt_irrefl 0)
        | cons b tail =>
            obtain ⟨rfl, hrest⟩ := List.cons.inj hwire
            exact ⟨tail, rfl, hrest⟩
      by_cases hshort : first.toNat % 2 ^ prefixBits < 2 ^ prefixBits - 1
      · rw [if_pos hshort, Except.ok.injEq, Prod.mk.injEq]
        constructor
        · rintro ⟨rfl, rfl⟩
          exact ⟨[first], wire, rfl, rfl, by omega, .short first hshort, by omega⟩
        · rintro ⟨octets, rest, hwire, rfl, -, hint, -⟩
          obtain ⟨tail, rfl, -⟩ := hsplit hwire hint
          obtain ⟨rfl, rfl⟩ := (PrefixInt.cons_short_iff hshort).mp hint
          exact ⟨rfl, rfl⟩
      · have hfull : first.toNat % 2 ^ prefixBits = 2 ^ prefixBits - 1 := by omega
        have hloop := @decodeIntegerLoop_exact wire 1 (first.toNat % 2 ^ prefixBits) value used le_rfl
          (by omega)
        rw [if_neg hshort, hloop, hfull]
        constructor
        · rintro ⟨cont, rest, v, rfl, hcont, rfl, hused, rfl, hvalue⟩
          refine ⟨first :: cont, rest, rfl, Nat.add_comm _ _, hused, ?_, hvalue⟩
          have hlong := PrefixInt.long first hfull hcont
          simpa using hlong
        · rintro ⟨octets, rest, hwire, rfl, hused, hint, hvalue⟩
          obtain ⟨tail, rfl, rfl⟩ := hsplit hwire hint
          obtain ⟨w, hcont, rfl⟩ := (PrefixInt.cons_long_iff hfull).mp hint
          exact ⟨tail, rest, w, rfl, hcont, Nat.add_comm _ _, hused, by simp, hvalue⟩

/-- **Integer decoding is exact**: the accepted strings, with their values and lengths, are the
prefix integers of at most five continuation octets and 32 bits; everything else is a compression
error; and no shift or addition on the way loses a bit. -/
theorem decodeInteger_exact {prefixBits : Nat} (h1 : 1 ≤ prefixBits) (h8 : prefixBits ≤ 8)
    (wire : List UInt8) :
    (∀ value used, decodeInteger wire prefixBits = .ok (value, used)
      ↔ ∃ octets rest, wire = octets ++ rest ∧ octets.length = used ∧ used ≤ 1 + 5
        ∧ PrefixInt prefixBits octets value ∧ value ≤ 2 ^ 32 - 1)
    ∧ (∀ ret, decodeInteger wire prefixBits = .error ret → ret = .compressionError)
    ∧ Checked.decodeInteger wire prefixBits = some (decodeInteger wire prefixBits) := by
  refine ⟨fun value used => ?_, fun ret h => decodeInteger_error h,
    Checked.decodeInteger_eq wire prefixBits⟩
  rw [decodeInteger_ok_iff h1 h8]
  norm_num

/-- The largest value, with a prefix of seven bits and octets behind it. -/
theorem decodeInteger_exact_max :
    ∃ octets rest, [0x7f, 0x80, 0xff, 0xff, 0xff, 0x0f, 0x00] = octets ++ rest
      ∧ octets.length = 6 ∧ 6 ≤ 1 + 5 ∧ PrefixInt 7 octets 4294967295
      ∧ 4294967295 ≤ 2 ^ 32 - 1 :=
  ((decodeInteger_exact (by decide) (by decide) _).1 4294967295 6).mp (by decide)

/-! ## Encoding -/

theorem encodeIntegerDigits_eq (room value : Nat) : encodeIntegerDigits room value
    = if (continuationOctets value).length ≤ room then some (continuationOctets value)
      else none := by
  induction room generalizing value with
  | zero =>
      have hlen := (continuation_encode value).length_pos
      rw [if_neg (by omega)]
      rfl
  | succ room ih =>
      rw [encodeIntegerDigits]
      by_cases hhigh : value ≥ 128
      · have hbyte : value &&& 0x7f ||| 0x80 = value % 128 + 128 := by
          rw [Checked.and_127, Nat.or_comm]
          exact (shiftLeft_or (Nat.mod_lt value (by decide : 0 < 2 ^ 7)) 1).trans (Nat.add_comm _ _)
        have hdiv : value >>> 7 = value / 128 := Nat.shiftRight_eq_div_pow value 7
        rw [if_pos hhigh, continuationOctets_high hhigh, List.length_cons, hbyte, hdiv, ih]
        by_cases hfit : (continuationOctets (value / 128)).length ≤ room
        · rw [if_pos hfit, if_pos (by omega)]
          rfl
        · rw [if_neg hfit, if_neg (by omega)]
          rfl
      · rw [if_neg hhigh, continuationOctets_low (not_le.mp hhigh), List.length_singleton,
          if_pos (by omega)]

/-- Bits above the prefix and a number in the prefix do not overlap. -/
theorem or_disjoint {prefixBits high v : Nat} (hover : high &&& (2 ^ prefixBits - 1) = 0)
    (hv : v < 2 ^ prefixBits) : 2 ^ prefixBits ∣ high ∧ high ||| v = high + v := by
  rw [Nat.and_two_pow_sub_one_eq_mod] at hover
  obtain ⟨a, rfl⟩ := Nat.dvd_of_mod_eq_zero hover
  refine ⟨Nat.dvd_mul_right _ _, ?_⟩
  rw [Nat.mul_comm, ← Nat.shiftLeft_eq, shiftLeft_or hv, Nat.shiftLeft_eq]

/-- **The encoder writes the shortest prefix integer**, if it fits. -/
theorem encodeInteger_eq {prefixBits highBits : Nat} (h1 : 1 ≤ prefixBits) (h8 : prefixBits ≤ 8)
    (hover : highBits &&& (2 ^ prefixBits - 1) = 0) (cap value : Nat) :
    encodeInteger cap prefixBits highBits value
      = if (encodePrefix prefixBits highBits value).length ≤ cap then
          some (encodePrefix prefixBits highBits value)
        else none := by
  have hpos : 0 < 2 ^ prefixBits := Nat.two_pow_pos prefixBits
  rw [encodeInteger, encodePrefix]
  by_cases hcap : cap = 0 ∨ prefixBits = 0 ∨ prefixBits > 8
  · -- no octet fits
    have h0 : cap = 0 := by omega
    rw [if_pos hcap, h0]
    split <;> simp
  · rw [if_neg hcap]
    simp only [(Checked.prefixMax_eq h8).1]
    by_cases hshort : value < 2 ^ prefixBits - 1
    · rw [if_pos hshort, if_pos hshort, (or_disjoint hover (by omega)).2, List.length_singleton,
        if_pos (by omega)]
    · rw [if_neg hshort, if_neg hshort, (or_disjoint hover (by omega)).2, encodeIntegerDigits_eq,
        List.length_cons]
      by_cases hfit : (continuationOctets (value - (2 ^ prefixBits - 1))).length ≤ cap - 1
      · rw [if_pos hfit, if_pos (by omega)]
        rfl
      · rw [if_neg hfit, if_neg (by omega)]
        rfl

/-- A number of 32 bits takes at most six octets. -/
theorem encodePrefix_length_le {prefixBits highBits value : Nat} (hvalue : value < 2 ^ 32) :
    (encodePrefix prefixBits highBits value).length ≤ 6 := by
  rw [encodePrefix]
  split
  · simp
  · have hlen := @continuationOctets_length_le 4 (value - (2 ^ prefixBits - 1)) (by
      norm_num
      omega)
    rw [List.length_cons]
    omega

/-- **Integer round trip**: what the encoder writes is read back with the octets it takes, whatever
follows, and the encoder gives up exactly if the encoding is longer than the buffer. -/
theorem encodeInteger_roundtrip {value prefixBits highBits : Nat} (hvalue : value < 2 ^ 32)
    (h1 : 1 ≤ prefixBits) (h8 : prefixBits ≤ 8) (hhigh : highBits < 2 ^ 8)
    (hover : highBits &&& (2 ^ prefixBits - 1) = 0) (cap : Nat) (suffix : List UInt8) :
    (∀ wire, encodeInteger cap prefixBits highBits value = some wire →
      0 < wire.length ∧ wire.length ≤ cap
        ∧ decodeInteger (wire ++ suffix) prefixBits = .ok (value, wire.length))
    ∧ (encodeInteger cap prefixBits highBits value = none
      ↔ cap < (encodePrefix prefixBits highBits value).length) := by
  have hdvd := (or_disjoint hover (Nat.two_pow_pos prefixBits)).1
  have hint := prefixInt_encode h8 hhigh hdvd value
  have hlen := @encodePrefix_length_le prefixBits highBits value hvalue
  rw [encodeInteger_eq h1 h8 hover]
  constructor
  · intro wire hwire
    split_ifs at hwire with hfit
    obtain rfl := Option.some.inj hwire
    refine ⟨hint.length_pos, hfit, ?_⟩
    rw [decodeInteger_ok_iff h1 h8]
    exact ⟨_, suffix, rfl, rfl, hlen, hint, by omega⟩
  · rw [ite_eq_right_iff]
    simp

/-- The largest value with a prefix of one bit takes six octets, which fit exactly. -/
theorem encodeInteger_roundtrip_max :
    decodeInteger ([0xff, 0xfe, 0xff, 0xff, 0xff, 0x0f] ++ [0x2a]) 1 = .ok (4294967295, 6) :=
  ((@encodeInteger_roundtrip 4294967295 1 0xfe (by decide) (by decide) (by decide) (by decide)
    (by decide) 6 [0x2a]).1 [0xff, 0xfe, 0xff, 0xff, 0xff, 0x0f] (by decide)).2.2

end C11Omo.Http2
