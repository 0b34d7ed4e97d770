import Mathlib

set_option autoImplicit false

/-! # Maximal munch

A text over any alphabet is cut into tokens. The first character of a token decides its kind, the
kind decides which characters continue it, and a token takes all of these that follow (`lex`).
Characters that are blank stand between tokens. Writing the tokens of a text down with one blank
between them gives a text with the same tokens (`lex_spaced`).
-/

namespace C11Omo.Lib

/-- How the characters of an alphabet `α` make tokens of kinds `κ`. -/
structure Munch (α κ : Type) where
  blank : α → Bool
  kind : α → κ
  more : κ → α → Bool

namespace Munch

variable {α κ : Type} (m : Munch α κ)

/-- The tokens of a text, each with its kind. -/
def lex : List α → List (κ × List α)
  | [] => []
  | a :: as =>
      if m.blank a then lex as
      else
        (m.kind a, a :: as.takeWhile (m.more (m.kind a)))
          :: lex (as.dropWhile (m.more (m.kind a)))
termination_by as => as.length
decreasing_by
  · exact Nat.lt_succ_self _
  · exact Nat.lt_succ_of_le (List.dropWhile_suffix _).length_le

@[simp] theorem lex_nil : m.lex [] = [] := by rw [lex]

variable {m} {a : α} {as bs : List α} {token : κ × List α}

theorem lex_blank (h : m.blank a = true) (as : List α) : m.lex (a :: as) = m.lex as := by
  rw [lex, if_pos h]

theorem lex_start (h : m.blank a = false) (as : List α) : m.lex (a :: as)
    = (m.kind a, a :: as.takeWhile (m.more (m.kind a)))
      :: m.lex (as.dropWhile (m.more (m.kind a))) := by
  rw [lex, if_neg (by simp [h])]

/-- A token is not empty, its first character has its kind, and the others continue it. -/
def Proper (m : Munch α κ) (token : κ × List α) : Prop :=
  ∃ a as, token = (m.kind a, a :: as) ∧ m.blank a = false ∧ ∀ b ∈ as, m.more (m.kind a) b = true

theorem lex_proper (text : List α) : ∀ token ∈ m.lex text, m.Proper token := by
  induction text using lex.induct m with
  | case1 => simp
  | case2 a as hblank ih =>
      rw [lex_blank hblank]
      exact ih
  | case3 a as hblank ih =>
      rw [lex_start (by simpa using hblank)]
      rintro token (_ | ⟨_, hmem⟩)
      · exact ⟨a, _, rfl, by simpa using hblank, fun b hb => List.mem_takeWhile_imp hb⟩
      · exact ih token hmem

/-- A token at the front of a text that does not continue it. -/
theorem lex_token (h : m.Proper token) (hend : ∀ b ∈ bs.head?, m.more token.1 b = false) :
    m.lex (token.2 ++ bs) = token :: m.lex bs := by
  obtain ⟨a, as, rfl, hblank, hmore⟩ := h
  have hstop : bs.takeWhile (m.more (m.kind a)) = [] ∧ bs.dropWhile (m.more (m.kind a)) = bs := by
    cases bs with
    | nil => exact ⟨rfl, rfl⟩
    | cons b bs =>
        have hb : m.more (m.kind a) b = false := hend b rfl
        rw [List.takeWhile_cons_of_neg (by simp [hb]), List.dropWhile_cons_of_neg (by simp [hb])]
        exact ⟨rfl, rfl⟩
  rw [List.cons_append, lex_start hblank, List.takeWhile_append_of_pos hmore,
    List.dropWhile_append_of_pos hmore, hstop.1, hstop.2, List.append_nil]

/-- **Tokens with one blank between them** are found again. -/
theorem lex_intercalate {sep : α} (hblank : m.blank sep = true)
    (hsep : ∀ k, m.more k sep = false) {tokens : List (κ × List α)}
    (hproper : ∀ token ∈ tokens, m.Proper token) :
    m.lex ([sep].intercalate (tokens.map Prod.snd)) = tokens := by
  induction tokens with
  | nil => simp [List.intercalate]
  | cons token tokens ih =>
      have hfirst := hproper token List.mem_cons_self
      have hrest := ih fun t ht => hproper t (List.mem_cons_of_mem token ht)
      cases tokens with
      | nil =>
          have hone := lex_token hfirst (show ∀ b ∈ ([] : List α).head?, m.more token.1 b = false by simp)
          simpa [List.intercalate] using hone
      | cons next tokens =>
          have hcons : [sep].intercalate ((token :: next :: tokens).map Prod.snd)
              = token.2 ++ sep :: [sep].intercalate ((next :: tokens).map Prod.snd) := by
            simp [List.intercalate]
          rw [hcons, lex_token hfirst (by simp [hsep]), lex_blank hblank, hrest]

/-- **Lexing again** what has been lexed. -/
theorem lex_spaced {sep : α} (hblank : m.blank sep = true) (hsep : ∀ k, m.more k sep = false)
    (text : List α) : m.lex ([sep].intercalate ((m.lex text).map Prod.snd)) = m.lex text :=
  lex_intercalate hblank hsep (lex_proper text)

end Munch

end C11Omo.Lib
