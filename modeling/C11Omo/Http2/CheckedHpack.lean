import C11Omo.Http2.Hpack
import C11Omo.Lib.Checked

set_option autoImplicit false

/-! # HPACK with every access checked

`src/hpack.c` once more, over the operations of `Lib.Checked`: a pointer with its remaining length
is the region it may be read in, a `char` array is read up to its size, and a loop that would run
longer than its input stops. None of these checks ever fails: the functions return what those of
`Hpack` return, with the terminating zero behind a text.
-/

namespace C11Omo.Http2.Checked

open C11Omo.Lib C11Omo.Lib.Checked

/-! ## Integers -/

/-- The loop of `h2_hpack_decode_integer`. -/
def decodeIntegerLoop (wire : List UInt8) : (fuel pos shift result : Nat) →
    Option (Except ErrorCode (Nat × Nat))
  | 0, _, _, _ => none
  | fuel + 1, pos, shift, result =>
      if pos < wire.length then do
        let byte ← read wire pos
        if pos > 5 then pure (.error .compressionError)
        else if shift ≥ 32 then pure (.error .compressionError)
        else
          let byteValue := byte.toNat &&& 0x7f
          let limit ← shr 64 0xffffffff shift
          if byteValue > limit then pure (.error .compressionError)
          else
            let addition ← shl 64 byteValue shift
            let limit ← sub 0xffffffff addition
            if result > limit then pure (.error .compressionError)
            else
              let result ← add 64 result addition
              if byte.toNat &&& 0x80 = 0 then
                let value ← cast 32 result
                pure (.ok (value, pos + 1))
              else
                let shift ← add 32 shift 7
                decodeIntegerLoop wire fuel (pos + 1) shift result
      else pure (.error .compressionError)

/-- `h2_hpack_decode_integer`. -/
def decodeInteger (wire : List UInt8) (prefixBits : Nat) :
    Option (Except ErrorCode (Nat × Nat)) :=
  if wire.length = 0 ∨ prefixBits = 0 ∨ prefixBits > 8 then pure (.error .compressionError)
  else do
    let power ← shl 32 1 prefixBits
    let prefixMax ← sub power 1
    let first ← read wire 0
    let result := first.toNat &&& prefixMax
    if result < prefixMax then
      let value ← cast 32 result
      pure (.ok (value, 1))
    else decodeIntegerLoop wire wire.length 1 0 result

/-- Masking with ones is a remainder. -/
theorem and_127 (n : Nat) : n &&& 0x7f = n % 128 := Nat.and_two_pow_sub_one_eq_mod n 7

/-- **The loop loses no bit and stays in the string**: before the octet at `pos` it has shifted by
seven for each octet that it has read. -/
theorem decodeIntegerLoop_eq {wire : List UInt8} {fuel pos shift result : Nat}
    (hfuel : wire.length < fuel + pos) (hend : pos ≤ wire.length) (hpos : 1 ≤ pos)
    (hshift : shift = 7 * (pos - 1)) (hresult : result ≤ 0xffffffff) :
    decodeIntegerLoop wire fuel pos shift result
      = some (Http2.decodeIntegerLoop (wire.drop pos) pos shift result) := by
  induction fuel generalizing pos shift result with
  | zero => omega
  | succ fuel ih =>
      rw [decodeIntegerLoop]
      by_cases hmore : pos < wire.length
      · have hdrop : wire.drop pos = wire.getD pos 0 :: wire.drop (pos + 1) := by
          rw [List.drop_eq_getElem_cons hmore, List.getD_eq_getElem _ _ hmore]
        rw [if_pos hmore, read_getD hmore, hdrop, Http2.decodeIntegerLoop]
        simp only [Option.bind_eq_bind, Option.bind_some, Option.pure_def]
        generalize (wire.getD pos 0).toNat = byte
        -- after five bytes the source gives up, so the shift is at most 28
        by_cases hlong : pos > 5
        · rw [if_pos hlong, if_pos hlong]
        · have hs : ¬ shift ≥ 32 := by omega
          have hlow : byte &&& 0x7f < 128 := by
            rw [and_127]
            omega
          rw [if_neg hlong, if_neg hlong, if_neg hs, if_neg hs, shr_of_lt (by omega)]
          simp only [Option.bind_some]
          by_cases hdigit : byte &&& 0x7f > 0xffffffff >>> shift
          · rw [if_pos hdigit, if_pos hdigit]
          · -- the digit fits 32 bits after the shift
            have hadd : (byte &&& 0x7f) <<< shift ≤ 0xffffffff := by
              rw [Nat.shiftLeft_eq]
              rw [not_lt, Nat.shiftRight_eq_div_pow] at hdigit
              exact (Nat.mul_le_mul_right _ hdigit).trans (Nat.div_mul_le_self _ _)
            rw [if_neg hdigit, if_neg hdigit, shl_of_lt (by omega) (by omega)]
            simp only [Option.bind_some]
            rw [sub_of_le hadd]
            simp only [Option.bind_some]
            by_cases hsum : result > 0xffffffff - (byte &&& 0x7f) <<< shift
            · rw [if_pos hsum, if_pos hsum]
            · rw [if_neg hsum, if_neg hsum, add_of_lt (by omega)]
              simp only [Option.bind_some]
              by_cases hlast : byte &&& 0x80 = 0
              · rw [if_pos hlast, if_pos hlast, cast_of_lt (by omega)]
                rfl
              · rw [if_neg hlast, if_neg hlast, add_of_lt (by omega)]
                exact ih (by omega) hmore (by omega) (by omega) (by omega)
      · have hnil : wire.drop pos = [] := List.drop_eq_nil_of_le (by omega)
        rw [if_neg hmore, hnil]
        rfl

/-- The mask of a prefix. -/
theorem prefixMax_eq {prefixBits : Nat} (h : prefixBits ≤ 8) :
    1 <<< prefixBits - 1 = 2 ^ prefixBits - 1 ∧ 1 <<< prefixBits < 2 ^ 32
      ∧ 1 ≤ 1 <<< prefixBits := by
  have hle : (2 : Nat) ^ prefixBits ≤ 2 ^ 8 := Nat.pow_le_pow_right (by decide) h
  have hpos : 0 < 2 ^ prefixBits := Nat.two_pow_pos _
  rw [Nat.one_shiftLeft]
  omega

theorem decodeInteger_eq (wire : List UInt8) (prefixBits : Nat) :
    decodeInteger wire prefixBits = some (Http2.decodeInteger wire prefixBits) := by
  cases wire with
  | nil => rfl
  | cons first rest =>
      rw [decodeInteger, Http2.decodeInteger]
      by_cases hbits : prefixBits = 0 ∨ prefixBits > 8
      · rw [if_pos (Or.inr hbits), if_pos hbits]
        rfl
      · obtain ⟨-, hpower, hone⟩ := @prefixMax_eq prefixBits (by omega)
        have hlen : ¬ ((first :: rest).length = 0 ∨ prefixBits = 0 ∨ prefixBits > 8) := by
          simp only [List.length_cons]
          omega
        have hmask : first.toNat &&& (1 <<< prefixBits - 1) < 256 :=
          Nat.and_le_left.trans_lt first.toNat_lt
        rw [if_neg hlen, if_neg hbits, shl_of_lt (by omega) hpower]
        simp only [Option.bind_eq_bind, Option.bind_some]
        rw [sub_of_le hone]
        simp only [Option.bind_some, read_cons_zero]
        by_cases hshort : first.toNat &&& (1 <<< prefixBits - 1) < 1 <<< prefixBits - 1
        · rw [if_pos hshort, if_pos hshort, cast_of_lt (by omega)]
          rfl
        · rw [if_neg hshort, if_neg hshort]
          exact decodeIntegerLoop_eq (Nat.lt_succ_self _) (by simp) le_rfl rfl (by omega)

end C11Omo.Http2.Checked
