import Mathlib

set_option autoImplicit false

/-! # Cutting a stream into frames

A `Framing` cuts one frame off the front of a stream, or says that no complete frame is there
yet. The decision depends only on what has arrived: more input behind a complete frame does
not change the frame. `Framing.split` cuts off all complete frames. It does not matter in which
pieces the stream arrives (`Framing.split_append`), and a stream that was written frame by
frame splits into the frames written (`Framing.split_flatMap`). `Framing.pieces` keeps the part of
the stream from which a frame was cut.
-/

namespace C11Omo.Lib

/-- A way to cut a stream of `α` into frames of type `β`. -/
structure Framing (α β : Type) where
  cut : List α → Option (β × List α)
  cut_length_lt : ∀ {xs b rest}, cut xs = some (b, rest) → rest.length < xs.length
  cut_append : ∀ {xs b rest}, cut xs = some (b, rest) → ∀ ys, cut (xs ++ ys) = some (b, rest ++ ys)

namespace Framing

variable {α β : Type} (F : Framing α β)

/-- Cut off at most `fuel` frames: the frames and the rest of the stream. -/
def splitFuel : Nat → List α → List β × List α
  | 0, xs => ([], xs)
  | fuel + 1, xs =>
      match F.cut xs with
      | none => ([], xs)
      | some (b, rest) => (b :: (splitFuel fuel rest).1, (splitFuel fuel rest).2)

/-- Cut off all complete frames: the frames and the incomplete rest. -/
def split (xs : List α) : List β × List α := F.splitFuel xs.length xs

/-- The length of the stream is enough fuel, and so is anything above it. -/
theorem splitFuel_eq_split {fuel : Nat} {xs : List α} (h : xs.length ≤ fuel) :
    F.splitFuel fuel xs = F.split xs := by
  have key : ∀ n m (xs : List α), xs.length ≤ n → xs.length ≤ m →
      F.splitFuel n xs = F.splitFuel m xs := by
    intro n
    induction n with
    | zero =>
        intro m xs hn _
        obtain rfl : xs = [] := List.length_eq_zero_iff.mp (by omega)
        have hnil : F.cut [] = none := by
          rcases hc : F.cut [] with _ | ⟨b, rest⟩
          · rfl
          · exact absurd (F.cut_length_lt hc) (Nat.not_lt_zero _)
        cases m with
        | zero => rfl
        | succ m => simp [splitFuel, hnil]
    | succ n ih =>
        intro m xs hn hm
        rcases hc : F.cut xs with _ | ⟨b, rest⟩
        · cases m with
          | zero => simp [splitFuel, hc]
          | succ m => simp [splitFuel, hc]
        · have hlt := F.cut_length_lt hc
          cases m with
          | zero => omega
          | succ m => simp [splitFuel, hc, ih m rest (by omega) (by omega)]
  exact key _ _ xs h (Nat.le_refl _)

theorem split_of_cut_eq_none {xs : List α} (h : F.cut xs = none) : F.split xs = ([], xs) := by
  rw [← F.splitFuel_eq_split (Nat.le_succ _)]
  simp [splitFuel, h]

theorem split_of_cut_eq_some {xs rest : List α} {b : β} (h : F.cut xs = some (b, rest)) :
    F.split xs = (b :: (F.split rest).1, (F.split rest).2) := by
  have hlt := F.cut_length_lt h
  rw [← F.splitFuel_eq_split (Nat.le_succ xs.length), splitFuel, h]
  simp only [F.splitFuel_eq_split (Nat.le_of_lt hlt)]

/-- Splitting leaves no complete frame behind. -/
theorem cut_split_rest (xs : List α) : F.cut (F.split xs).2 = none := by
  induction hn : xs.length using Nat.strong_induction_on generalizing xs with
  | _ n ih =>
      rcases hc : F.cut xs with _ | ⟨b, rest⟩
      · rw [F.split_of_cut_eq_none hc]
        exact hc
      · rw [F.split_of_cut_eq_some hc]
        exact ih rest.length (hn ▸ F.cut_length_lt hc) rest rfl

/-- **Chunking independence.** Splitting a stream that arrives in two pieces gives the frames of
the first piece followed by those of its rest together with the second piece. -/
theorem split_append (xs ys : List α) :
    F.split (xs ++ ys) = ((F.split xs).1 ++ (F.split ((F.split xs).2 ++ ys)).1,
      (F.split ((F.split xs).2 ++ ys)).2) := by
  induction hn : xs.length using Nat.strong_induction_on generalizing xs with
  | _ n ih =>
      rcases hc : F.cut xs with _ | ⟨b, rest⟩
      · rw [F.split_of_cut_eq_none hc]
        rfl
      · rw [F.split_of_cut_eq_some (F.cut_append hc ys), F.split_of_cut_eq_some hc,
          ih rest.length (hn ▸ F.cut_length_lt hc) rest rfl]
        rfl

/-- A stream written frame by frame splits into the frames written. -/
theorem split_flatMap {write : β → List α}
    (hcut : ∀ b tail, F.cut (write b ++ tail) = some (b, tail)) (bs : List β) :
    F.split (bs.flatMap write) = (bs, []) := by
  induction bs with
  | nil =>
      rcases hc : F.cut [] with _ | ⟨b, rest⟩
      · exact F.split_of_cut_eq_none hc
      · exact absurd (F.cut_length_lt hc) (Nat.not_lt_zero _)
  | cons b bs ih =>
      rw [List.flatMap_cons, F.split_of_cut_eq_some (hcut b _), ih]

/-! ## The pieces of the stream

The frames together with the part of the stream that each was cut from. -/

/-- What was cut off the front of a stream. -/
def front (xs rest : List α) : List α := xs.take (xs.length - rest.length)

/-- The framing that keeps the part of the stream it has cut off. -/
def pieces : Framing α (β × List α) where
  cut xs := (F.cut xs).map fun p => ((p.1, front xs p.2), p.2)
  cut_length_lt := by
    intro xs p rest h
    obtain ⟨⟨b, rest'⟩, hcut, heq⟩ := Option.map_eq_some_iff.mp h
    obtain ⟨-, rfl⟩ := Prod.mk.inj heq
    exact F.cut_length_lt hcut
  cut_append := by
    intro xs p rest h ys
    obtain ⟨⟨b, rest'⟩, hcut, heq⟩ := Option.map_eq_some_iff.mp h
    obtain ⟨rfl, rfl⟩ := Prod.mk.inj heq
    have hfront : front (xs ++ ys) (rest' ++ ys) = front xs rest' := by
      rw [front, front, List.length_append, List.length_append, Nat.add_sub_add_right]
      exact List.take_append_of_le_length (Nat.sub_le _ _)
    simp only [F.cut_append hcut ys, Option.map_some, hfront]

theorem pieces_cut_eq_none {xs : List α} (h : F.cut xs = none) : F.pieces.cut xs = none := by
  simp [pieces, h]

theorem pieces_cut_eq_some {xs rest : List α} {b : β} (h : F.cut xs = some (b, rest)) :
    F.pieces.cut xs = some ((b, front xs rest), rest) := by
  simp [pieces, h]

/-- The pieces come with the frames of the stream, and leave the same rest. -/
theorem pieces_split (xs : List α) :
    (F.pieces.split xs).1.map Prod.fst = (F.split xs).1
      ∧ (F.pieces.split xs).2 = (F.split xs).2 := by
  induction hn : xs.length using Nat.strong_induction_on generalizing xs with
  | _ n ih =>
      rcases hc : F.cut xs with _ | ⟨b, rest⟩
      · rw [F.split_of_cut_eq_none hc, F.pieces.split_of_cut_eq_none (F.pieces_cut_eq_none hc)]
        exact ⟨rfl, rfl⟩
      · obtain ⟨hfst, hsnd⟩ := ih rest.length (hn ▸ F.cut_length_lt hc) rest rfl
        rw [F.split_of_cut_eq_some hc, F.pieces.split_of_cut_eq_some (F.pieces_cut_eq_some hc)]
        exact ⟨by rw [List.map_cons, hfst], hsnd⟩

/-- What holds of every frame that is cut off a stream, with the part it is cut from, holds of all
pieces. -/
theorem pieces_mem {P : β → List α → Prop}
    (hP : ∀ {xs b rest}, F.cut xs = some (b, rest) → P b (front xs rest)) (xs : List α) :
    ∀ p ∈ (F.pieces.split xs).1, P p.1 p.2 := by
  induction hn : xs.length using Nat.strong_induction_on generalizing xs with
  | _ n ih =>
      intro p hp
      rcases hc : F.cut xs with _ | ⟨b, rest⟩
      · rw [F.pieces.split_of_cut_eq_none (F.pieces_cut_eq_none hc)] at hp
        cases hp
      · rw [F.pieces.split_of_cut_eq_some (F.pieces_cut_eq_some hc)] at hp
        rcases List.mem_cons.mp hp with rfl | hp
        · exact hP hc
        · exact ih rest.length (hn ▸ F.cut_length_lt hc) rest rfl p hp

end Framing

end C11Omo.Lib
