import Mathlib

set_option autoImplicit false

/-! # The lengths in a C program

A C function reduced to its arithmetic with `size_t` of 64 bits and to the places it writes to. The
result of such a computation has a trace beside it: the exact value of each sum and product, which
the program itself only has modulo 2^64, and each store into an array. Nothing stops where a number
wraps or a store leaves its array; whether that happens is read off the trace (`Metered.Safe`).
-/

namespace C11Omo.Lib.Sizes

/-- The number of values of `size_t`. -/
def sizeValues : Nat := 2 ^ 64

/-- An operation whose outcome depends on lengths. -/
inductive Event
  /-- A sum or a product with its exact value. -/
  | arith (exact : Nat)
  /-- `len` bytes that are written at an offset of an array of `cap` bytes. -/
  | store (cap off len : Nat)
  deriving DecidableEq, Repr

/-- The sum or product is a `size_t`, the store is inside the array. -/
def Event.Ok : Event → Prop
  | .arith exact => exact < sizeValues
  | .store cap off len => off + len ≤ cap

instance : DecidablePred Event.Ok
  | .arith exact => inferInstanceAs (Decidable (exact < sizeValues))
  | .store cap off len => inferInstanceAs (Decidable (off + len ≤ cap))

/-- A computation and its trace. -/
structure Metered (α : Type) where
  events : List Event
  value : α
  deriving DecidableEq, Repr

instance : Monad Metered where
  pure a := { events := [], value := a }
  bind x f := { events := x.events ++ (f x.value).events, value := (f x.value).value }

/-- `a + b`. -/
def add (a b : Nat) : Metered Nat :=
  { events := [.arith (a + b)], value := (a + b) % sizeValues }

/-- `a * b`. -/
def mul (a b : Nat) : Metered Nat :=
  { events := [.arith (a * b)], value := a * b % sizeValues }

/-- `memcpy`, or stores one behind the other. -/
def store (cap off len : Nat) : Metered Unit := { events := [.store cap off len], value := () }

/-- No sum or product wraps, and no store leaves its array. -/
def Metered.Safe {α : Type} (x : Metered α) : Prop := ∀ e ∈ x.events, e.Ok

instance {α : Type} (x : Metered α) : Decidable x.Safe :=
  inferInstanceAs (Decidable (∀ e ∈ x.events, e.Ok))

section

variable {α β : Type}

@[simp] theorem value_pure (a : α) : (pure a : Metered α).value = a := rfl

@[simp] theorem value_bind (x : Metered α) (f : α → Metered β) :
    (x >>= f).value = (f x.value).value := rfl

@[simp] theorem value_add (a b : Nat) : (add a b).value = (a + b) % sizeValues := rfl

@[simp] theorem value_mul (a b : Nat) : (mul a b).value = a * b % sizeValues := rfl

@[simp] theorem safe_pure (a : α) : (pure a : Metered α).Safe := by
  intro e he
  cases he

/-- **Two computations in a row.** -/
@[simp] theorem safe_bind (x : Metered α) (f : α → Metered β) :
    (x >>= f).Safe ↔ x.Safe ∧ (f x.value).Safe :=
  List.forall_mem_append

/-- A test between two computations. -/
theorem safe_ite {c : Prop} [Decidable c] {x y : Metered α} :
    (if c then x else y).Safe ↔ (c → x.Safe) ∧ (¬ c → y.Safe) := by
  by_cases h : c
  · simp [h]
  · simp [h]

theorem value_ite {c : Prop} [Decidable c] {x y : Metered α} :
    (if c then x else y).value = if c then x.value else y.value := by
  by_cases h : c
  · simp [h]
  · simp [h]

@[simp] theorem safe_add (a b : Nat) : (add a b).Safe ↔ a + b < sizeValues :=
  List.forall_mem_singleton

@[simp] theorem safe_mul (a b : Nat) : (mul a b).Safe ↔ a * b < sizeValues :=
  List.forall_mem_singleton

@[simp] theorem safe_store (cap off len : Nat) : (store cap off len).Safe ↔ off + len ≤ cap :=
  List.forall_mem_singleton

end

end C11Omo.Lib.Sizes
