import Mathlib

set_option autoImplicit false

/-! # Byte strings

Byte strings are lists of `UInt8`. A number of fixed width is written most significant byte
first (`beBytes`) and read back the same way (`beNat`); `byteAt` reads one byte at an offset,
and `cstr` is the text of a zero-terminated string.
-/

namespace C11Omo.Lib

/-! ## Big-endian numbers -/

/-- The number a byte string denotes, most significant byte first. -/
def beNat : List UInt8 → Nat
  | [] => 0
  | b :: bs => b.toNat * 256 ^ bs.length + beNat bs

/-- The last `k` bytes of `v`, most significant first. -/
def beBytes : Nat → Nat → List UInt8
  | 0, _ => []
  | k + 1, v => UInt8.ofNat (v >>> (8 * k)) :: beBytes k v

@[simp] theorem beBytes_length (k v : Nat) : (beBytes k v).length = k := by
  induction k with
  | zero => rfl
  | succ k ih => rw [beBytes, List.length_cons, ih]

/-- Writing `v` in `k` bytes and reading it back keeps `v` modulo `256 ^ k`. -/
theorem beNat_beBytes (k v : Nat) : beNat (beBytes k v) = v % 256 ^ k := by
  induction k with
  | zero => rw [pow_zero, Nat.mod_one]; rfl
  | succ k ih =>
      have hpow : (2 : Nat) ^ (8 * k) = 256 ^ k := by rw [pow_mul]; norm_num
      have hsplit : v % 256 ^ (k + 1) = v % 256 ^ k + 256 ^ k * (v / 256 ^ k % 256) :=
        Nat.mod_pow_succ
      rw [beBytes, beNat, ih, beBytes_length, UInt8.toNat_ofNat', Nat.shiftRight_eq_div_pow,
        hpow, hsplit]
      ring

theorem beNat_beBytes_of_lt {k v : Nat} (h : v < 256 ^ k) : beNat (beBytes k v) = v := by
  rw [beNat_beBytes, Nat.mod_eq_of_lt h]

theorem beNat_three (a b c : UInt8) :
    beNat [a, b, c] = a.toNat * 65536 + b.toNat * 256 + c.toNat := by
  simp only [beNat, List.length_cons, List.length_nil]
  omega

theorem beNat_four (a b c d : UInt8) :
    beNat [a, b, c, d] = a.toNat * 16777216 + b.toNat * 65536 + c.toNat * 256 + d.toNat := by
  simp only [beNat, List.length_cons, List.length_nil]
  omega

/-- A shifted number and a number below the shift do not overlap: `|||` is `+`. -/
theorem shiftLeft_or {i b : Nat} (h : b < 2 ^ i) (a : Nat) : a <<< i ||| b = a * 2 ^ i + b := by
  rw [← Nat.shiftLeft_add_eq_or_of_lt h, Nat.shiftLeft_eq]

theorem shiftLeft_or_three {b c : Nat} (hb : b < 256) (hc : c < 256) (a : Nat) :
    a <<< 16 ||| b <<< 8 ||| c = a * 65536 + b * 256 + c := by
  have hlow : b * 2 ^ 8 + c < 2 ^ 16 := by omega
  rw [Nat.or_assoc, shiftLeft_or (by omega : c < 2 ^ 8), shiftLeft_or hlow]
  omega

theorem shiftLeft_or_four {b c d : Nat} (hb : b < 256) (hc : c < 256) (hd : d < 256) (a : Nat) :
    a <<< 24 ||| b <<< 16 ||| c <<< 8 ||| d = a * 16777216 + b * 65536 + c * 256 + d := by
  have hlow : b * 65536 + c * 256 + d < 2 ^ 24 := by omega
  rw [Nat.or_assoc, Nat.or_assoc, ← Nat.or_assoc (b <<< 16), shiftLeft_or_three hc hd,
    shiftLeft_or hlow]
  omega

/-! ## One byte at an offset -/

/-- The byte at offset `i`, as a number; reading past the end gives `0`. -/
def byteAt (bs : List UInt8) (i : Nat) : Nat := (bs.getD i 0).toNat

theorem byteAt_lt (bs : List UInt8) (i : Nat) : byteAt bs i < 256 := (bs.getD i 0).toNat_lt

@[simp] theorem byteAt_cons_zero (b : UInt8) (bs : List UInt8) : byteAt (b :: bs) 0 = b.toNat := rfl

@[simp] theorem byteAt_cons_succ (b : UInt8) (bs : List UInt8) (i : Nat) :
    byteAt (b :: bs) (i + 1) = byteAt bs i := rfl

theorem byteAt_append_left {bs : List UInt8} {i : Nat} (h : i < bs.length) (tail : List UInt8) :
    byteAt (bs ++ tail) i = byteAt bs i := by
  rw [byteAt, byteAt, List.getD_append _ _ _ _ h]

theorem byteAt_drop (bs : List UInt8) (k i : Nat) : byteAt (bs.drop k) i = byteAt bs (k + i) := by
  simp [byteAt, List.getD_eq_getElem?_getD]

/-- A property of all bytes, from the 256 of them. -/
theorem forall_octet {p : UInt8 → Prop} (h : ∀ n : Fin 256, p (UInt8.ofNat n.val)) (b : UInt8) :
    p b := by
  have hb := h ⟨b.toNat, b.toNat_lt⟩
  rwa [UInt8.ofNat_toNat] at hb

/-- The top bit of a byte. -/
theorem and_128_eq_zero {n : Nat} (h : n < 256) : n &&& 0x80 = 0 ↔ n < 128 := by
  have key : ∀ m : Fin 256, m.val &&& 0x80 = 0 ↔ m.val < 128 := by
    decide +kernel
  exact key ⟨n, h⟩

/-! ## Zero-terminated strings -/

/-- The text of a zero-terminated string: the bytes before the first zero byte. -/
def cstr (bs : List UInt8) : List UInt8 := bs.takeWhile (· ≠ 0)

theorem zero_notMem_cstr (bs : List UInt8) : (0 : UInt8) ∉ cstr bs := by
  intro h
  simpa using List.mem_takeWhile_imp h

theorem cstr_length_le (bs : List UInt8) : (cstr bs).length ≤ bs.length :=
  (List.takeWhile_prefix _).length_le

theorem cstr_eq_self {bs : List UInt8} (h : (0 : UInt8) ∉ bs) : cstr bs = bs := by
  rw [cstr, List.takeWhile_eq_self_iff]
  intro b hb
  simp only [decide_eq_true_eq]
  rintro rfl
  exact h hb

theorem cstr_terminated {bs : List UInt8} (h : (0 : UInt8) ∉ bs) : cstr (bs ++ [0]) = bs := by
  induction bs with
  | nil => rfl
  | cons b bs ih =>
      obtain ⟨hb, hbs⟩ := not_or.mp (mt List.mem_cons.mpr h)
      rw [List.cons_append, cstr, List.takeWhile_cons_of_pos (by simpa using Ne.symm hb)]
      exact congrArg (b :: ·) (ih hbs)

/-- The bytes of an ASCII text. -/
def ascii (s : String) : List UInt8 := s.toList.map (fun c => UInt8.ofNat c.toNat)

end C11Omo.Lib
