import C11Omo.Lib.Bytes

set_option autoImplicit false

/-! # Checked memory and arithmetic

A C program written over these operations stops (`none`) where it would leave the defined part of
the language: at an access outside the array, at a result that does not fit its type, at a
subtraction that goes below zero. A region of memory is the list of its bytes; an array that is
being filled is the list of the bytes written so far, with its size beside it. If a program in this
style returns what another one computes without the checks, then no check fails.
-/

namespace C11Omo.Lib.Checked

/-! ## Arithmetic -/

/-- `a - b` of unsigned numbers. -/
def sub (a b : Nat) : Option Nat := if b ≤ a then some (a - b) else none

/-- `a + b` in a type of `w` bits. -/
def add (w a b : Nat) : Option Nat := if a + b < 2 ^ w then some (a + b) else none

/-- `a << s` in a type of `w` bits: the count is in range and no bit is lost. -/
def shl (w a s : Nat) : Option Nat := if s < w ∧ a <<< s < 2 ^ w then some (a <<< s) else none

/-- `a >> s` in a type of `w` bits: the count is in range. -/
def shr (w a s : Nat) : Option Nat := if s < w then some (a >>> s) else none

/-- A conversion to a type of `w` bits that keeps the value. -/
def cast (w a : Nat) : Option Nat := if a < 2 ^ w then some a else none

@[simp] theorem sub_of_le {a b : Nat} (h : b ≤ a) : sub a b = some (a - b) := if_pos h

@[simp] theorem add_of_lt {w a b : Nat} (h : a + b < 2 ^ w) : add w a b = some (a + b) := if_pos h

@[simp] theorem shl_of_lt {w a s : Nat} (hs : s < w) (h : a <<< s < 2 ^ w) :
    shl w a s = some (a <<< s) := if_pos ⟨hs, h⟩

@[simp] theorem shr_of_lt {w s : Nat} (h : s < w) (a : Nat) : shr w a s = some (a >>> s) := if_pos h

@[simp] theorem cast_of_lt {w a : Nat} (h : a < 2 ^ w) : cast w a = some a := if_pos h

section

variable {α : Type}

/-! ## Reading -/

/-- The element at an offset of a region. -/
def read (region : List α) (i : Nat) : Option α := region[i]?

/-- The byte at an offset of a region, as a number. -/
def byte (region : List UInt8) (i : Nat) : Option Nat := (read region i).map UInt8.toNat

/-- `len` elements at an offset of a region. -/
def slice (region : List α) (off len : Nat) : Option (List α) :=
  if off + len ≤ region.length then some ((region.drop off).take len) else none

/-- The region behind the pointer `region + off`, with the length `len - off`. -/
def rest (region : List α) (off : Nat) : Option (List α) :=
  (sub region.length off).bind (slice region off)

theorem read_of_lt {region : List α} {i : Nat} (h : i < region.length) :
    read region i = some region[i] := List.getElem?_eq_getElem h

@[simp] theorem read_cons_zero (b : α) (bs : List α) : read (b :: bs) 0 = some b := rfl

theorem read_getD {region : List UInt8} {i : Nat} (h : i < region.length) :
    read region i = some (region.getD i 0) := by
  rw [read_of_lt h, List.getD_eq_getElem _ _ h]

@[simp] theorem byte_of_lt {region : List UInt8} {i : Nat} (h : i < region.length) :
    byte region i = some (byteAt region i) := by
  rw [byte, read_getD h]
  rfl

@[simp] theorem slice_of_le {region : List α} {off len : Nat} (h : off + len ≤ region.length) :
    slice region off len = some ((region.drop off).take len) := if_pos h

@[simp] theorem rest_of_le {region : List α} {off : Nat} (h : off ≤ region.length) :
    rest region off = some (region.drop off) := by
  have hall : (region.drop off).take (region.length - off) = region.drop off :=
    List.take_of_length_le (by rw [List.length_drop])
  rw [rest, sub_of_le h, Option.bind_some, slice_of_le (by omega), hall]

/-! ## Writing -/

/-- Write elements behind those already in an array of `cap` elements. -/
def write (cap : Nat) (array src : List α) : Option (List α) :=
  if array.length + src.length ≤ cap then some (array ++ src) else none

@[simp] theorem write_of_le {cap : Nat} {array src : List α}
    (h : array.length + src.length ≤ cap) : write cap array src = some (array ++ src) := if_pos h

end

/-! ## Zero-terminated strings -/

/-- `strlen`: the terminating zero has to be in the region. -/
def strlen : List UInt8 → Option Nat
  | [] => none
  | b :: bs => if b = 0 then some 0 else (strlen bs).map (· + 1)

/-- `strcmp(…) == 0`: reading goes on in both regions up to the first difference or the common
terminating zero. -/
def strcmp : List UInt8 → List UInt8 → Option Bool
  | a :: as, b :: bs =>
      if a ≠ b then some false
      else if a = 0 then some true
      else strcmp as bs
  | _, _ => none

/-- `snprintf` to an array of `size` bytes: the length of the whole text, and the part of it that was
written, with its terminating zero. -/
def snprintf (size : Nat) (text : List UInt8) : Option (Nat × List UInt8) := do
  let room ← sub size 1
  let array ← write size [] (text.take room ++ [0])
  pure (text.length, array)

theorem snprintf_eq {size : Nat} (hsize : 0 < size) (text : List UInt8) :
    snprintf size text = some (text.length, text.take (size - 1) ++ [0]) := by
  rw [snprintf, sub_of_le hsize]
  simp only [Option.bind_eq_bind, Option.bind_some]
  rw [write_of_le (by
    rw [List.length_append, List.length_take, List.length_singleton, List.length_nil]
    omega)]
  rfl

theorem strlen_terminated (bs rest : List UInt8) :
    strlen (bs ++ 0 :: rest) = some (cstr bs).length := by
  induction bs with
  | nil => rfl
  | cons b bs ih =>
      rw [List.cons_append, strlen]
      by_cases hb : b = 0
      · rw [if_pos hb, hb]
        rfl
      · have hcstr : cstr (b :: bs) = b :: cstr bs := List.takeWhile_cons_of_pos (by simpa using hb)
        rw [if_neg hb, ih, hcstr]
        rfl

/-- What `strlen` counts, and the terminating zero behind it. -/
theorem terminated_split (bs : List UInt8) : ∃ tail, bs ++ [0] = cstr bs ++ 0 :: tail := by
  induction bs with
  | nil => exact ⟨[], rfl⟩
  | cons b bs ih =>
      by_cases hb : b = 0
      · exact ⟨bs ++ [0], by rw [hb]; rfl⟩
      · obtain ⟨tail, htail⟩ := ih
        have hcstr : cstr (b :: bs) = b :: cstr bs := List.takeWhile_cons_of_pos (by simpa using hb)
        exact ⟨tail, by rw [hcstr, List.cons_append, List.cons_append, htail]⟩

theorem strcmp_terminated (as bs : List UInt8) :
    strcmp (as ++ [0]) (bs ++ [0]) = some (decide (cstr as = cstr bs)) := by
  have hzero : ∀ xs : List UInt8, cstr (0 :: xs) = [] := fun _ => rfl
  have hcons : ∀ {b : UInt8} (xs : List UInt8), b ≠ 0 → cstr (b :: xs) = b :: cstr xs := by
    intro b xs hb
    exact List.takeWhile_cons_of_pos (by simpa using hb)
  induction as generalizing bs with
  | nil =>
      cases bs with
      | nil => rfl
      | cons b bs =>
          rw [List.nil_append, List.cons_append, strcmp]
          by_cases hb : b = 0
          · subst hb
            rfl
          · rw [if_pos (Ne.symm hb), hcons bs hb]
            rfl
  | cons a as ih =>
      cases bs with
      | nil =>
          rw [List.nil_append, List.cons_append, strcmp]
          by_cases ha : a = 0
          · subst ha
            rfl
          · rw [if_pos ha, hcons as ha]
            rfl
      | cons b bs =>
          rw [List.cons_append, List.cons_append, strcmp]
          by_cases hab : a = b
          · subst hab
            rw [if_neg (by simp)]
            -- equal octets: both texts end here, or the comparison goes on
            by_cases ha : a = 0
            · rw [if_pos ha, ha, hzero, hzero]
              rfl
            · rw [if_neg ha, ih bs, hcons as ha, hcons bs ha]
              simp
          · rw [if_pos hab]
            have hne : cstr (a :: as) ≠ cstr (b :: bs) := by
              by_cases ha : a = 0
              · have hb : b ≠ 0 := fun h => hab (ha.trans h.symm)
                rw [ha, hzero, hcons bs hb]
                exact (List.cons_ne_nil _ _).symm
              · rw [hcons as ha]
                by_cases hb : b = 0
                · rw [hb, hzero]
                  exact List.cons_ne_nil _ _
                · rw [hcons bs hb]
                  intro h
                  exact hab (List.cons.inj h).1
            rw [decide_eq_false hne]

end C11Omo.Lib.Checked
