import C11Omo.Http2.HpackIntegers

set_option autoImplicit false

/-! # Header lists

What the encoders write field by field is read back as the list of fields
(`header_list_roundtrip`): every representation says where it ends, so it is read the same way
whatever follows it (`decodeHeadersLoop_encode`).
-/

namespace C11Omo.Http2

open C11Omo.Lib

/-! ## The static table -/

/-- Every entry of the static table is a text and fits the buffers of a header field. -/
theorem staticTable_text : ∀ e ∈ staticTable, ((0 : UInt8) ∉ e.name ∧ e.name.length < headerNameCap)
    ∧ (0 : UInt8) ∉ e.value ∧ e.value.length < headerValueCap := by
  decide +kernel

theorem staticGet_mem {index : Nat} {entry : StaticEntry} (h : staticGet index = some entry) :
    entry ∈ staticTable := by
  rw [staticGet] at h
  split_ifs at h
  exact List.mem_of_getElem? h

theorem staticGet_isSome {index : Nat} (h1 : 1 ≤ index) (h61 : index ≤ staticTableLen) :
    ∃ entry, staticGet index = some entry := by
  have hlen : index - 1 < staticTable.length := by
    have hall : staticTable.length = staticTableLen := by decide
    omega
  rw [staticGet, if_neg (by omega), List.getElem?_eq_getElem hlen]
  exact ⟨_, rfl⟩

theorem copyText_text {cap : Nat} {src : List UInt8} (htext : (0 : UInt8) ∉ src)
    (hlen : src.length < cap) : copyText cap src = .ok src := by
  rw [copyText, cstr_eq_self htext, if_neg (by omega), if_neg (by omega)]

/-! ## Fields -/

/-- A header field that the encoders accept and that fits the buffers of the decoder. -/
inductive EncodableField
  | indexed (index : Nat) (range : 1 ≤ index ∧ index ≤ staticTableLen)
  | literal (name value : List UInt8) (name_text : (0 : UInt8) ∉ name ∧ name.length ≤ 63)
      (value_text : (0 : UInt8) ∉ value ∧ value.length ≤ 255)

/-- The octets of a string literal. -/
def stringOctets (text : List UInt8) : List UInt8 := encodePrefix 7 0 text.length ++ text

namespace EncodableField

/-- The field that the representation stands for. -/
def field : EncodableField → HeaderField
  | indexed index _ =>
      match staticGet index with
      | some entry => { name := entry.name, value := entry.value }
      | none => { name := [], value := [] }
  | literal name value _ _ => { name := name, value := value }

/-- The octets of a field. -/
def octets : EncodableField → List UInt8
  | indexed index _ => encodePrefix 7 0x80 index
  | literal name value _ _ => 0x00 :: stringOctets name ++ stringOctets value

/-- The encoder of a field. -/
def encode (cap : Nat) : EncodableField → Option (List UInt8)
  | indexed index _ => encodeIndexed cap index
  | literal name value _ _ => encodeLiteralNewName cap name value

end EncodableField

/-- The outputs of the encoders one behind the other, each with its own capacity. -/
def encodeFields : List (EncodableField × Nat) → Option (List UInt8)
  | [] => some []
  | (f, cap) :: rest =>
      match f.encode cap, encodeFields rest with
      | some octets, some block => some (octets ++ block)
      | _, _ => none

/-! ## Encoding -/

theorem encodeString_eq {cap : Nat} {text : List UInt8} (htext : (0 : UInt8) ∉ text)
    (hlen : text.length ≤ 0xffffffff) (hcap : (stringOctets text).length ≤ cap) :
    encodeString cap text = some (stringOctets text) := by
  have hroom : (encodePrefix 7 0 text.length).length + text.length ≤ cap := by
    rwa [stringOctets, List.length_append] at hcap
  have hint := @encodeInteger_eq 7 0 (by decide) (by decide) (by decide) cap text.length
  rw [if_pos (by omega)] at hint
  rw [encodeString, cstr_eq_self htext]
  simp only [if_neg (not_lt.mpr hlen), hint]
  rw [if_neg (not_lt.mpr hroom)]
  rfl

theorem EncodableField.encode_eq (f : EncodableField) {cap : Nat} (hcap : f.octets.length ≤ cap) :
    f.encode cap = some f.octets := by
  cases f with
  | indexed index range =>
      obtain ⟨entry, hentry⟩ := staticGet_isSome range.1 range.2
      have hint := @encodeInteger_eq 7 0x80 (by decide) (by decide) (by decide) cap index
      rw [encode, encodeIndexed, hentry]
      exact hint.trans (if_pos hcap)
  | literal name value name_text value_text =>
      have hlen : 1 + (stringOctets name).length + (stringOctets value).length ≤ cap := by
        rw [octets, List.length_append, List.length_cons] at hcap
        omega
      rw [encode, encodeLiteralNewName, if_neg (by omega),
        encodeString_eq name_text.1 (by omega) (by omega)]
      simp only
      rw [encodeString_eq value_text.1 (by omega) (by omega)]
      rfl

/-! ## Decoding -/

/-- The octets of a short number with a prefix of seven bits. -/
theorem decodeInteger_encode {high value : Nat} (hhigh : high = 0 ∨ high = 0x80)
    (hvalue : value < 2 ^ 32) (rest : List UInt8) :
    decodeInteger (encodePrefix 7 high value ++ rest) 7
      = .ok (value, (encodePrefix 7 high value).length) := by
  have hdvd : 2 ^ 7 ∣ high := by omega
  rw [decodeInteger_ok_iff (by decide) (by decide)]
  exact ⟨_, rest, rfl, rfl, encodePrefix_length_le hvalue,
    prefixInt_encode (by decide) (by omega) hdvd value, by omega⟩

/-- The first octet of a number with a prefix of seven bits. -/
theorem encodePrefix_first (high value : Nat) : ∃ first tail,
    encodePrefix 7 high value = UInt8.ofNat (high + first) :: tail ∧ first < 128 := by
  rw [encodePrefix]
  split
  · exact ⟨value, [], rfl, by omega⟩
  · exact ⟨2 ^ 7 - 1, _, rfl, by norm_num⟩

/-- A string literal is read back, whatever follows. -/
theorem decodeString_octets {text : List UInt8} {cap : Nat} (hlen : text.length < 2 ^ 32)
    (hcap : text.length < cap) (rest : List UInt8) :
    decodeString (stringOctets text ++ rest) cap = .ok (text, (stringOctets text).length) := by
  have hint := decodeInteger_encode (Or.inl rfl) hlen (text ++ rest)
  obtain ⟨first, tail, hfirst, hlow⟩ := encodePrefix_first 0 text.length
  have hplain : ¬ byteAt (stringOctets text ++ rest) 0 &&& 0x80 ≠ 0 := by
    rw [stringOctets, hfirst, not_not, and_128_eq_zero (byteAt_lt _ _), List.cons_append,
      List.cons_append, byteAt_cons_zero, UInt8.toNat_ofNat']
    omega
  have hwire : stringOctets text ++ rest = encodePrefix 7 0 text.length ++ (text ++ rest) :=
    List.append_assoc _ _ _
  have hlength : (stringOctets text).length
      = (encodePrefix 7 0 text.length).length + text.length := List.length_append
  have h0 : ¬ (cap = 0 ∨ (stringOctets text ++ rest).length = 0) := by
    rw [List.length_append, hlength, hfirst, List.length_cons]
    omega
  rw [decodeString, if_neg h0, if_neg hplain, hwire, hint]
  simp only
  rw [if_neg (by simp), if_neg (not_le.mpr hcap), List.drop_left, List.take_left, hlength]

/-- **One field is read back**, whatever follows. -/
theorem decodeHeadersLoop_encode (f : EncodableField) (fuel fieldCap : Nat) (rest : List UInt8) :
    decodeHeadersLoop (fuel + 1) (f.octets ++ rest) (fieldCap + 1)
      = (decodeHeadersLoop fuel rest fieldCap).map (f.field :: ·) := by
  have hfield : ¬ fieldCap + 1 = 0 := Nat.succ_ne_zero _
  cases f with
  | indexed index range =>
      obtain ⟨entry, hentry⟩ := staticGet_isSome range.1 range.2
      obtain ⟨hname, hvalue⟩ := staticTable_text entry (staticGet_mem hentry)
      have hindex : index < 2 ^ 32 := by
        have := range.2
        simp only [staticTableLen] at this
        omega
      have hint := decodeInteger_encode (Or.inr rfl) hindex rest
      obtain ⟨first, tail, hfirst, hlow⟩ := encodePrefix_first 0x80 index
      -- the prefix of seven bits leaves the top bit of 0x80
      have hhigh : UInt8.ofNat (0x80 + first) &&& 0x80 ≠ 0 := by
        intro h
        have hbits := congrArg UInt8.toNat h
        rw [UInt8.toNat_and, UInt8.toNat_ofNat', Nat.mod_eq_of_lt (by omega)] at hbits
        have := (and_128_eq_zero (by omega)).mp hbits
        omega
      rw [EncodableField.octets, EncodableField.field, hentry]
      rw [hfirst, List.cons_append] at hint ⊢
      rw [decodeHeadersLoop]
      simp only [if_neg hfield, if_pos hhigh, hint, hentry, copyText_text hname.1 hname.2,
        copyText_text hvalue.1 hvalue.2, Nat.add_sub_cancel]
      rw [← List.cons_append, List.drop_left]
  -- a literal with a new name: the byte 0x00, and then two strings
  | literal name value name_text value_text =>
      have hlit : ¬ ((0x00 : UInt8) &&& 0x80 ≠ 0) := by decide
      have hsize : ¬ ((0x00 : UInt8) &&& 0xe0 = 0x20) := by decide
      have hint : ∀ tail, decodeInteger ((0x00 : UInt8) :: tail) (literalPrefixBits 0x00)
          = .ok (0, 1) := fun _ => rfl
      have hwire : EncodableField.octets (.literal name value name_text value_text) ++ rest
          = 0x00 :: (stringOctets name ++ (stringOctets value ++ rest)) := by
        simp [EncodableField.octets]
      have hname : decodeIndexedLiteralName (0x00 :: (stringOctets name ++ (stringOctets value ++ rest)))
          (literalPrefixBits 0x00) headerNameCap = .ok (name, 1 + (stringOctets name).length) := by
        rw [decodeIndexedLiteralName, hint]
        simp only [if_true, List.drop_succ_cons, List.drop_zero]
        rw [decodeString_octets (by omega) (by simp only [headerNameCap]; omega)]
      have hvalue : ((0x00 : UInt8) :: (stringOctets name ++ (stringOctets value ++ rest))).drop
          (1 + (stringOctets name).length) = stringOctets value ++ rest := by
        rw [Nat.add_comm, List.drop_succ_cons, List.drop_left]
      have hrest : ((0x00 : UInt8) :: (stringOctets name ++ (stringOctets value ++ rest))).drop
          (1 + (stringOctets name).length + (stringOctets value).length) = rest := by
        rw [← List.drop_drop, hvalue, List.drop_left]
      rw [hwire, decodeHeadersLoop]
      simp only [if_neg hfield, if_neg hlit, if_neg hsize, hname, hvalue]
      rw [decodeString_octets (by omega) (by simp only [headerValueCap]; omega)]
      simp only [hrest, Nat.add_sub_cancel]
      rfl

theorem EncodableField.octets_length_pos (f : EncodableField) : 0 < f.octets.length := by
  cases f with
  | indexed index range =>
      obtain ⟨first, tail, hfirst, -⟩ := encodePrefix_first 0x80 index
      rw [octets, hfirst]
      exact Nat.succ_pos _
  | literal name value name_text value_text =>
      rw [octets, List.cons_append]
      exact Nat.succ_pos _

theorem decodeHeadersLoop_fields (fields : List EncodableField) {fuel fieldCap : Nat}
    (hfuel : (fields.flatMap EncodableField.octets).length ≤ fuel)
    (hcap : fields.length ≤ fieldCap) :
    decodeHeadersLoop fuel (fields.flatMap EncodableField.octets) fieldCap
      = .ok (fields.map EncodableField.field) := by
  induction fields generalizing fuel fieldCap with
  | nil => cases fuel <;> rfl
  | cons f fields ih =>
      have hpos := f.octets_length_pos
      rw [List.flatMap_cons, List.length_append] at hfuel
      rw [List.length_cons] at hcap
      obtain ⟨fuel, rfl⟩ : ∃ n, fuel = n + 1 := ⟨fuel - 1, by omega⟩
      obtain ⟨cap, rfl⟩ : ∃ n, fieldCap = n + 1 := ⟨fieldCap - 1, by omega⟩
      rw [List.flatMap_cons, decodeHeadersLoop_encode, ih (by omega) (by omega)]
      rfl

theorem encodeFields_eq {fields : List (EncodableField × Nat)}
    (hcap : ∀ f ∈ fields, f.1.octets.length ≤ f.2) :
    encodeFields fields = some ((fields.map Prod.fst).flatMap EncodableField.octets) := by
  induction fields with
  | nil => rfl
  | cons f fields ih =>
      have hrest := ih fun g hg => hcap g (List.mem_cons_of_mem _ hg)
      rw [encodeFields, f.1.encode_eq (hcap f (List.mem_cons_self ..)), hrest]
      rfl

/-- **Header list round trip**: what the encoders write for a list of fields, each with enough room,
is decoded to exactly these fields in order. -/
theorem header_list_roundtrip {fields : List (EncodableField × Nat)} {fieldCap : Nat}
    (hcap : ∀ f ∈ fields, f.1.octets.length ≤ f.2) (hfields : fields.length ≤ fieldCap) :
    ∃ block, encodeFields fields = some block
      ∧ decodeHeaders block fieldCap = .ok (fields.map fun f => f.1.field) := by
  refine ⟨_, encodeFields_eq hcap, ?_⟩
  rw [decodeHeaders, decodeHeadersLoop_fields _ le_rfl (by rwa [List.length_map]), List.map_map]
  rfl

/-- The last static entry, a value whose length takes two octets, and an empty field, in buffers
without a byte to spare. -/
theorem header_list_roundtrip_lengths :
    ∃ block, encodeFields
        [(.indexed 61 (by decide), 1),
          (.literal (ascii "x") (List.replicate 127 0x61) (by decide) (by simp), 132),
          (.literal [] [] (by decide) (by decide), 3)] = some block
      ∧ decodeHeaders block 3 = .ok
        [{ name := ascii "www-authenticate", value := [] },
          { name := ascii "x", value := List.replicate 127 0x61 }, { name := [], value := [] }] := by
  have hlong : (stringOctets (List.replicate 127 0x61)).length = 129 := by
    rw [stringOctets, List.length_replicate, encodePrefix, if_neg (by decide),
      continuationOctets_low (by decide)]
    rfl
  refine header_list_roundtrip (fun f hf => ?_) (by decide)
  rcases List.mem_cons.mp hf with rfl | hf
  · decide
  · rcases List.mem_cons.mp hf with rfl | hf
    · rw [EncodableField.octets, List.length_append, hlong]
      decide
    · rw [List.mem_singleton.mp hf]
      decide

end C11Omo.Http2
