import Mathlib

set_option autoImplicit false

/-! # Reading one item after another

A format whose texts are items put end to end, and a loop that reads them into a state. The loop
stops before an item that it refuses, or as soon as the state has no room for more, and it fails
where no item starts. What the loop does on each start of a text (`Reading.Loop`) decides what it
does with all of it: there are three ends, and each comes exactly for the texts that one expects
(`done_iff`, `refused_iff`, `ends`).
-/

namespace C11Omo.Lib

/-- A format: what an item is, what the loop refuses to read, when the state is full, and what an
item does to it. -/
structure Reading (α β σ : Type) where
  item : List α → β → Prop
  bad : List α → Prop
  full : σ → Prop
  next : σ → β → σ

namespace Reading

variable {α β σ ρ : Type} (r : Reading α β σ)

/-- A text that is made of items. -/
inductive Items : List α → List β → Prop
  | nil : Items [] []
  | cons {text rest : List α} {b : β} {bs : List β} (head : r.item text b)
      (tail : Items rest bs) : Items (text ++ rest) (b :: bs)

/-- There is room for each of the items. -/
def Room (s : σ) (bs : List β) : Prop :=
  ∀ before after, bs = before ++ after → after ≠ [] → ¬ r.full (before.foldl r.next s)

/-- Behind some items the loop stops before the end. -/
def Stops (s : σ) (text : List α) : Prop :=
  ∃ front rest bs, text = front ++ rest ∧ r.Items front bs ∧ rest ≠ []
    ∧ (r.full (bs.foldl r.next s) ∨ r.bad rest)

/-- **A loop that reads the format**, with fuel: what it does on the start of a text. The results
of the three ends are told apart. -/
structure Loop (result : Nat → List α → σ → ρ) (done : σ → ρ) (refused failed : ρ → Prop) :
    Prop where
  item_ne_nil : ∀ {text b}, r.item text b → text ≠ []
  finish : ∀ fuel s, result fuel [] s = done s
  stop : ∀ fuel {s text}, text ≠ [] → r.full s ∨ r.bad text → refused (result (fuel + 1) text s)
  step : ∀ fuel {s text b} rest, ¬ r.full s → r.item text b →
    result (fuel + 1) (text ++ rest) s = result fuel rest (r.next s b)
  other : ∀ fuel {s text}, text ≠ [] → ¬ r.full s →
    failed (result (fuel + 1) text s) ∨ r.bad text ∨ ∃ front rest b, text = front ++ rest
      ∧ r.item front b
  done_open : ∀ s, ¬ refused (done s) ∧ ¬ failed (done s)
  refused_ok : ∀ p, refused p → ¬ failed p

variable {r} {s : σ} {b : β} {bs : List β} {text rest : List α}

theorem room_nil : r.Room s [] := by
  intro before after h hafter
  exact absurd (List.append_eq_nil_iff.mp h.symm).2 hafter

theorem room_cons : r.Room s (b :: bs) ↔ ¬ r.full s ∧ r.Room (r.next s b) bs := by
  constructor
  · intro h
    constructor
    · exact h [] (b :: bs) rfl (List.cons_ne_nil _ _)
    · intro before after hbs hafter
      exact h (b :: before) after (by rw [hbs]; rfl) hafter
  · rintro ⟨hs, hroom⟩ before after hbs hafter
    cases before with
    | nil => exact hs
    | cons b' before =>
        obtain ⟨rfl, hrest⟩ := List.cons.inj hbs
        exact hroom before after hrest hafter

theorem stops_cons (h : r.item text b) (hrest : r.Stops (r.next s b) rest) :
    r.Stops s (text ++ rest) := by
  obtain ⟨front, rest, bs, rfl, hitems, hne, hstop⟩ := hrest
  exact ⟨text ++ front, rest, b :: bs, (List.append_assoc _ _ _).symm, .cons h hitems, hne, hstop⟩

namespace Loop

variable {result : Nat → List α → σ → ρ} {done : σ → ρ} {refused failed : ρ → Prop} {fuel : Nat}

/-- The rest behind an item is shorter. -/
theorem rest_length (h : r.Loop result done refused failed) (hitem : r.item text b)
    (hfuel : (text ++ rest).length ≤ fuel + 1) : rest.length ≤ fuel := by
  have hpos := List.length_pos_iff.mpr (h.item_ne_nil hitem)
  rw [List.length_append] at hfuel
  omega

/-- A text of items for which there is room is read to its end. -/
theorem of_items (h : r.Loop result done refused failed) (hitems : r.Items text bs)
    (hroom : r.Room s bs) (hfuel : text.length ≤ fuel) :
    result fuel text s = done (bs.foldl r.next s) := by
  induction hitems generalizing s fuel with
  | nil => exact h.finish fuel s
  | @cons text rest b bs head tail ih =>
      obtain ⟨hs, hroom⟩ := room_cons.mp hroom
      have hpos := List.length_pos_iff.mpr (h.item_ne_nil head)
      cases fuel with
      | zero =>
          rw [List.length_append] at hfuel
          omega
      | succ fuel =>
          rw [h.step fuel rest hs head]
          exact ih hroom (h.rest_length head hfuel)

theorem of_stops (h : r.Loop result done refused failed) (hstops : r.Stops s text)
    (hfuel : text.length ≤ fuel) : refused (result fuel text s) := by
  obtain ⟨front, rest, bs, rfl, hitems, hne, hstop⟩ := hstops
  induction hitems generalizing s fuel with
  | nil =>
      cases fuel with
      | zero => exact absurd (List.eq_nil_of_length_eq_zero (Nat.le_zero.mp hfuel)) hne
      | succ fuel => exact h.stop fuel hne hstop
  | @cons text front b bs head tail ih =>
      rw [List.append_assoc] at hfuel ⊢
      have hpos := List.length_pos_iff.mpr (h.item_ne_nil head)
      cases fuel with
      | zero =>
          rw [List.length_append] at hfuel
          omega
      | succ fuel =>
          by_cases hs : r.full s
          · -- the state is full before the first of these items
            exact h.stop fuel (List.append_ne_nil_of_left_ne_nil (h.item_ne_nil head) _) (.inl hs)
          · rw [h.step fuel _ hs head]
            exact ih (h.rest_length head hfuel) hstop

/-- **There are three ends.** -/
theorem ends (h : r.Loop result done refused failed) (hfuel : text.length ≤ fuel) :
    (∃ bs, r.Items text bs ∧ r.Room s bs ∧ result fuel text s = done (bs.foldl r.next s))
      ∨ (r.Stops s text ∧ refused (result fuel text s)) ∨ failed (result fuel text s) := by
  induction fuel generalizing text s with
  | zero =>
      obtain rfl := List.eq_nil_of_length_eq_zero (Nat.le_zero.mp hfuel)
      exact .inl ⟨[], .nil, room_nil, h.finish 0 s⟩
  | succ fuel ih =>
      by_cases hne : text = []
      · subst hne
        exact .inl ⟨[], .nil, room_nil, h.finish _ s⟩
      by_cases hs : r.full s
      · exact .inr (.inl ⟨⟨[], text, [], rfl, .nil, hne, .inl hs⟩, h.stop fuel hne (.inl hs)⟩)
      rcases h.other fuel hne hs with hfail | hbad | ⟨front, rest, b, rfl, hitem⟩
      · exact .inr (.inr hfail)
      · exact .inr (.inl ⟨⟨[], text, [], rfl, .nil, hne, .inr hbad⟩, h.stop fuel hne (.inr hbad)⟩)
      · rw [h.step fuel rest hs hitem]
        rcases @ih (r.next s b) rest (h.rest_length hitem hfuel) with
          ⟨bs, hitems, hroom, heq⟩ | ⟨hstops, href⟩ | hfail
        · exact .inl ⟨b :: bs, .cons hitem hitems, room_cons.mpr ⟨hs, hroom⟩, heq⟩
        · exact .inr (.inl ⟨stops_cons hitem hstops, href⟩)
        · exact .inr (.inr hfail)

/-- **The loop is through** exactly with the texts of items for which there is room. -/
theorem done_iff (h : r.Loop result done refused failed) (hfuel : text.length ≤ fuel) {p : ρ}
    (hp : ¬ refused p ∧ ¬ failed p) : result fuel text s = p
      ↔ ∃ bs, r.Items text bs ∧ r.Room s bs ∧ p = done (bs.foldl r.next s) := by
  constructor
  · rintro rfl
    rcases h.ends hfuel (s := s) with hdone | ⟨-, href⟩ | hfail
    · exact hdone
    · exact absurd href hp.1
    · exact absurd hfail hp.2
  · rintro ⟨bs, hitems, hroom, rfl⟩
    exact h.of_items hitems hroom hfuel

/-- **The loop refuses** exactly the texts behind whose first items it stops. -/
theorem refused_iff (h : r.Loop result done refused failed) (hfuel : text.length ≤ fuel) :
    refused (result fuel text s) ↔ r.Stops s text := by
  constructor
  · intro href
    rcases h.ends hfuel (s := s) with ⟨bs, -, -, heq⟩ | ⟨hstops, -⟩ | hfail
    · rw [heq] at href
      exact absurd href (h.done_open _).1
    · exact hstops
    · exact absurd hfail (h.refused_ok _ href)
  · exact fun hstops => h.of_stops hstops hfuel

end Loop

end Reading

end C11Omo.Lib
