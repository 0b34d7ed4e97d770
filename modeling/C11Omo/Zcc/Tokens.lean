import C11Omo.Lib.Bytes
import C11Omo.Lib.Munch

set_option autoImplicit false

/-! # The token dump

`dumpTokens` of `phase2/zcc/src/main.zig`, with the predicates of `std.ascii` it uses. What it
prints is given by its calls of `writer.print`, each with a label and a span of the source
(`Report`); the writer takes everything that is printed.

The two inner loops and the outer one share one index. `dumpLoop` is the outer loop from an index
on, and an iteration never leaves the index where it was.
-/

namespace C11Omo.Zcc

open C11Omo.Lib

/-! ## `std.ascii` -/

/-- `std.ascii.isWhitespace`: a space, or a byte from tab to carriage return. -/
def isWhitespace (byte : UInt8) : Bool := byte = 0x20 ∨ (0x09 ≤ byte ∧ byte ≤ 0x0d)

/-- `std.ascii.isDigit`. -/
def isDigit (byte : UInt8) : Bool := 0x30 ≤ byte ∧ byte ≤ 0x39

/-- `std.ascii.isAlphabetic`. -/
def isAlphabetic (byte : UInt8) : Bool :=
  (0x41 ≤ byte ∧ byte ≤ 0x5a) ∨ (0x61 ≤ byte ∧ byte ≤ 0x7a)

/-! ## The dump -/

/-- `isIdentStart`. -/
def isIdentStart (byte : UInt8) : Bool := isAlphabetic byte || byte = 0x5f

/-- `isIdentContinue`. -/
def isIdentContinue (byte : UInt8) : Bool := isIdentStart byte || isDigit byte

/-- The label in front of a token. -/
inductive Label
  | identifier
  | number
  | punctuator
  deriving DecidableEq, Repr

def Label.text : Label → List UInt8
  | .identifier => ascii "identifier"
  | .number => ascii "number"
  | .punctuator => ascii "punctuator"

/-- A call of `writer.print`: the token is `source[start..stop]`. -/
structure Report where
  label : Label
  start : Nat
  stop : Nat
  deriving DecidableEq, Repr

/-- `source[start..i]`. -/
def Report.text (source : List UInt8) (r : Report) : List UInt8 :=
  (source.drop r.start).take (r.stop - r.start)

/-- The line that is printed. -/
def Report.line (path source : List UInt8) (r : Report) : List UInt8 :=
  path ++ ascii ": " ++ r.label.text ++ ascii " " ++ r.text source ++ ascii "\n"

/-- An inner loop: `while (i < source.len and p(source[i])) : (i += 1) {}`. -/
def scan (p : UInt8 → Bool) (source : List UInt8) (i : Nat) : Nat :=
  if i < source.length ∧ p (source.getD i 0) then scan p source (i + 1) else i
termination_by source.length - i

/-- The token that starts at `i`. -/
def report (source : List UInt8) (i : Nat) : Report :=
  if isIdentStart (source.getD i 0) then
    { label := .identifier, start := i, stop := scan isIdentContinue source (i + 1) }
  else if isDigit (source.getD i 0) then
    { label := .number, start := i, stop := scan isDigit source (i + 1) }
  else { label := .punctuator, start := i, stop := i + 1 }

theorem le_scan (p : UInt8 → Bool) (source : List UInt8) (i : Nat) : i ≤ scan p source i := by
  induction i using scan.induct p source with
  | case1 i hgo ih =>
      rw [scan, if_pos hgo]
      omega
  | case2 i hstop => rw [scan, if_neg hstop]

theorem report_start (source : List UInt8) (i : Nat) : (report source i).start = i := by
  rw [report]
  split_ifs <;> rfl

theorem lt_report_stop (source : List UInt8) (i : Nat) : i < (report source i).stop := by
  rw [report]
  split_ifs
  · exact le_scan _ source (i + 1)
  · exact le_scan _ source (i + 1)
  · exact Nat.lt_succ_self i

/-- The outer loop of `dumpTokens` from an index on. -/
def dumpLoop (source : List UInt8) (i : Nat) : List Report :=
  if i < source.length then
    if isWhitespace (source.getD i 0) then dumpLoop source (i + 1)
    else report source i :: dumpLoop source (report source i).stop
  else []
termination_by source.length - i
decreasing_by
  · omega
  · have := lt_report_stop source i
    omega

/-- The spans that `dumpTokens` reports. -/
def reports (source : List UInt8) : List Report := dumpLoop source 0

/-- `dumpTokens`: what it writes. -/
def dumpTokens (path source : List UInt8) : List UInt8 :=
  (reports source).flatMap fun r => r.line path source

/-! ## One token -/

/-- The bytes that continue a token. -/
def Label.continues : Label → UInt8 → Bool
  | .identifier, byte => isIdentContinue byte
  | .number, byte => isDigit byte
  | .punctuator, _ => false

/-- The label of a token, by its first byte. -/
def labelOf (byte : UInt8) : Label :=
  if isIdentStart byte then .identifier else if isDigit byte then .number else .punctuator

/-- The bytes of a source as characters of tokens. -/
def tokens : Munch UInt8 Label where
  blank := isWhitespace
  kind := labelOf
  more := Label.continues

section

variable {source : List UInt8} {i j : Nat} {r : Report}

/-- **An inner loop** stops at the first byte that does not satisfy its condition. -/
theorem scan_spec (p : UInt8 → Bool) (source : List UInt8) (i : Nat) :
    (∀ j, i ≤ j → j < scan p source i → j < source.length ∧ p (source.getD j 0) = true)
      ∧ ¬ (scan p source i < source.length ∧ p (source.getD (scan p source i) 0) = true) := by
  induction i using scan.induct p source with
  | case1 i hgo ih =>
      rw [scan, if_pos hgo]
      refine ⟨fun j hij hj => ?_, ih.2⟩
      by_cases hi : j = i
      · rw [hi]
        exact hgo
      · exact ih.1 j (by omega) hj
  | case2 i hstop =>
      rw [scan, if_neg hstop]
      exact ⟨fun j hij hj => absurd hij (not_le.mpr hj), hstop⟩

/-- What an inner loop passes over, and what it leaves. -/
theorem scan_takeWhile (p : UInt8 → Bool) (source : List UInt8) (i : Nat) :
    (source.drop i).takeWhile p = (source.drop i).take (scan p source i - i)
      ∧ (source.drop i).dropWhile p = source.drop (scan p source i) := by
  induction i using scan.induct p source with
  | case1 i hgo ih =>
      have hle := le_scan p source (i + 1)
      have hlt : i < source.length := hgo.1
      have hp : p source[i] = true := by
        have hgo' := hgo.2
        rwa [List.getD_eq_getElem _ _ hlt] at hgo'
      rw [scan, if_pos hgo, List.drop_eq_getElem_cons hlt, List.takeWhile_cons_of_pos hp,
        List.dropWhile_cons_of_pos hp, ih.1, ih.2]
      have hsucc : scan p source (i + 1) - i = scan p source (i + 1) - (i + 1) + 1 := by omega
      rw [hsucc, List.take_succ_cons]
      exact ⟨rfl, rfl⟩
  | case2 i hstop =>
      rw [scan, if_neg hstop, Nat.sub_self, List.take_zero]
      by_cases hlt : i < source.length
      · have hp : ¬ p source[i] = true := by
          intro hp
          rw [← List.getD_eq_getElem _ 0 hlt] at hp
          exact hstop ⟨hlt, hp⟩
        rw [List.drop_eq_getElem_cons hlt, List.takeWhile_cons_of_neg hp,
          List.dropWhile_cons_of_neg hp]
        exact ⟨rfl, rfl⟩
      · rw [List.drop_of_length_le (not_lt.mp hlt)]
        exact ⟨rfl, rfl⟩

/-- A token has the label of its first byte and ends where the scan of that label does. -/
theorem report_eq (source : List UInt8) (i : Nat) : report source i
    = { label := labelOf (source.getD i 0)
        start := i
        stop := scan (labelOf (source.getD i 0)).continues source (i + 1) } := by
  have hpunct : scan Label.punctuator.continues source (i + 1) = i + 1 := by
    rw [scan, if_neg]
    rintro ⟨-, hmore⟩
    cases hmore
  rw [report, labelOf]
  split_ifs
  · rfl
  · rfl
  · rw [hpunct]

/-- The text of a token, and the text behind it. -/
theorem report_text (hlt : i < source.length) :
    (report source i).text source
        = source.getD i 0 :: (source.drop (i + 1)).takeWhile (labelOf (source.getD i 0)).continues
      ∧ source.drop (report source i).stop
        = (source.drop (i + 1)).dropWhile (labelOf (source.getD i 0)).continues := by
  rw [report_eq]
  generalize (labelOf (source.getD i 0)).continues = p
  obtain ⟨htake, hdrop⟩ := scan_takeWhile p source (i + 1)
  have hle := le_scan p source (i + 1)
  have hsucc : scan p source (i + 1) - i = scan p source (i + 1) - (i + 1) + 1 := by omega
  refine ⟨?_, hdrop.symm⟩
  rw [Report.text]
  show (source.drop i).take (scan p source (i + 1) - i) = _
  rw [hsucc, List.drop_eq_getElem_cons hlt, List.take_succ_cons, htake,
    List.getD_eq_getElem _ _ hlt]

/-- **The loop is maximal munch** on the text from its index on. -/
theorem dumpLoop_lex (source : List UInt8) (i : Nat) :
    (dumpLoop source i).map (fun r => (r.label, r.text source)) = tokens.lex (source.drop i) := by
  induction i using dumpLoop.induct source with
  | case1 i hlt hspace ih =>
      have hblank : tokens.blank source[i] = true := by
        rwa [List.getD_eq_getElem _ _ hlt] at hspace
      rw [dumpLoop, if_pos hlt, if_pos hspace, List.drop_eq_getElem_cons hlt,
        Munch.lex_blank hblank, ih]
  | case2 i hlt hspace ih =>
      have hblank : tokens.blank source[i] = false := by
        rw [List.getD_eq_getElem _ _ hlt] at hspace
        simpa [tokens] using hspace
      obtain ⟨htext, hrest⟩ := report_text hlt
      have hlabel : (report source i).label = labelOf (source.getD i 0) := by rw [report_eq]
      rw [dumpLoop, if_pos hlt, if_neg hspace, List.map_cons, ih, htext, hrest, hlabel,
        List.drop_eq_getElem_cons hlt, Munch.lex_start hblank, List.getD_eq_getElem _ _ hlt]
      rfl
  | case3 i hlt =>
      rw [dumpLoop, if_neg hlt, List.drop_of_length_le (not_lt.mp hlt), Munch.lex_nil]
      rfl

end

/-! ## The spans -/

/-- A span that is a token of its label and cannot be extended. -/
def Report.IsToken (source : List UInt8) (r : Report) : Prop :=
  match r.label with
  | .identifier =>
      isIdentStart (source.getD r.start 0) = true
        ∧ (∀ j, r.start < j → j < r.stop → isIdentContinue (source.getD j 0) = true)
        ∧ (r.stop < source.length → isIdentContinue (source.getD r.stop 0) = false)
  | .number =>
      (∀ j, r.start ≤ j → j < r.stop → isDigit (source.getD j 0) = true)
        ∧ (0 < r.start → isDigit (source.getD (r.start - 1) 0) = false)
        ∧ (r.stop < source.length → isDigit (source.getD r.stop 0) = false)
  | .punctuator =>
      r.stop = r.start + 1 ∧ isIdentStart (source.getD r.start 0) = false
        ∧ isDigit (source.getD r.start 0) = false ∧ isWhitespace (source.getD r.start 0) = false

/-- No digit run goes on across an index. -/
def RunEnds (source : List UInt8) (i : Nat) : Prop :=
  0 < i → i < source.length → isDigit (source.getD (i - 1) 0) = true →
    isDigit (source.getD i 0) = false

theorem not_blank_of_continues {byte : UInt8} (h : isIdentContinue byte = true) :
    isWhitespace byte = false := by
  revert h byte
  decide +kernel

theorem isIdentContinue_of_isDigit {byte : UInt8} (h : isDigit byte = true) :
    isIdentContinue byte = true := by
  rw [isIdentContinue, h, Bool.or_true]

/-- What continues a token is not blank. -/
theorem not_blank_of_label {label : Label} {byte : UInt8} (h : label.continues byte = true) :
    isWhitespace byte = false := by
  cases label with
  | identifier => exact not_blank_of_continues h
  | number => exact not_blank_of_continues (isIdentContinue_of_isDigit h)
  | punctuator => cases h

section

variable {source : List UInt8} {i : Nat}

/-- The bytes of the token at `i`: the first one, and those that continue it. -/
theorem report_bytes (hlt : i < source.length) : (report source i).stop ≤ source.length
    ∧ (∀ j, i < j → j < (report source i).stop →
      (labelOf (source.getD i 0)).continues (source.getD j 0) = true)
    ∧ ((report source i).stop < source.length →
      (labelOf (source.getD i 0)).continues (source.getD (report source i).stop 0) = false) := by
  rw [report_eq]
  generalize (labelOf (source.getD i 0)).continues = p
  obtain ⟨hall, hstop⟩ := scan_spec p source (i + 1)
  have hle := le_scan p source (i + 1)
  simp only
  refine ⟨?_, fun j hij hj => (hall j hij hj).2, fun hin => ?_⟩
  · by_contra hout
    have hlast := (hall (scan p source (i + 1) - 1) (by omega) (by omega)).1
    omega
  · simpa using fun hp => hstop ⟨hin, hp⟩

/-- **The token at an index** where no digit run goes on, and the index behind it. -/
theorem report_isToken (hlt : i < source.length)
    (hspace : isWhitespace (source.getD i 0) = false) (hends : RunEnds source i) :
    (report source i).IsToken source ∧ RunEnds source (report source i).stop := by
  obtain ⟨hle, hall, hstop⟩ := report_bytes hlt
  have hpos := lt_report_stop source i
  rw [report_eq] at hle hall hstop hpos ⊢
  by_cases hident : isIdentStart (source.getD i 0) = true
  · have hlabel : labelOf (source.getD i 0) = .identifier := if_pos hident
    rw [hlabel] at hle hall hstop hpos ⊢
    refine ⟨⟨hident, hall, hstop⟩, fun _ hin _ => ?_⟩
    -- a digit would continue the identifier
    have hnot := hstop hin
    by_contra hdigit
    rw [Label.continues, isIdentContinue_of_isDigit (by simpa using hdigit)] at hnot
    cases hnot
  · have hident' : isIdentStart (source.getD i 0) = false := by simpa using hident
    by_cases hdigit : isDigit (source.getD i 0) = true
    · have hlabel : labelOf (source.getD i 0) = .number := by
        rw [labelOf, if_neg hident, if_pos hdigit]
      rw [hlabel] at hle hall hstop hpos ⊢
      refine ⟨⟨fun j hij hj => ?_, fun h0 => ?_, hstop⟩, fun _ hin _ => hstop hin⟩
      · rcases Nat.eq_or_lt_of_le hij with rfl | hlt'
        · exact hdigit
        · exact hall j hlt' hj
      · by_contra hbefore
        have hnot := hends h0 hlt (by simpa using hbefore)
        rw [hdigit] at hnot
        cases hnot
    · have hdigit' : isDigit (source.getD i 0) = false := by simpa using hdigit
      have hlabel : labelOf (source.getD i 0) = .punctuator := by
        rw [labelOf, if_neg hident, if_neg hdigit]
      have hone : scan Label.punctuator.continues source (i + 1) = i + 1 := by
        rw [scan, if_neg]
        rintro ⟨-, hmore⟩
        cases hmore
      rw [hlabel, hone]
      refine ⟨⟨rfl, hident', hdigit', hspace⟩, fun _ _ hbefore => ?_⟩
      rw [Nat.add_sub_cancel, hdigit'] at hbefore
      cases hbefore

/-- The spans from an index on: they begin there or later and end within the source. -/
theorem dumpLoop_bounds (source : List UInt8) (i : Nat) :
    ∀ r ∈ dumpLoop source i, i ≤ r.start ∧ r.start < r.stop ∧ r.stop ≤ source.length := by
  induction i using dumpLoop.induct source with
  | case1 i hlt hspace ih =>
      rw [dumpLoop, if_pos hlt, if_pos hspace]
      intro r hr
      obtain ⟨hle, hrest⟩ := ih r hr
      exact ⟨by omega, hrest⟩
  | case2 i hlt hspace ih =>
      have hpos := lt_report_stop source i
      rw [dumpLoop, if_pos hlt, if_neg hspace]
      rintro r (_ | ⟨_, hr⟩)
      · rw [report_start]
        exact ⟨le_rfl, hpos, (report_bytes hlt).1⟩
      · obtain ⟨hle, hrest⟩ := ih r hr
        exact ⟨by omega, hrest⟩
  | case3 i hlt =>
      rw [dumpLoop, if_neg hlt]
      intro r hr
      cases hr

theorem dumpLoop_increasing (source : List UInt8) (i : Nat) :
    (dumpLoop source i).Pairwise fun r s => r.stop ≤ s.start := by
  induction i using dumpLoop.induct source with
  | case1 i hlt hspace ih =>
      rw [dumpLoop, if_pos hlt, if_pos hspace]
      exact ih
  | case2 i hlt hspace ih =>
      rw [dumpLoop, if_pos hlt, if_neg hspace]
      exact List.pairwise_cons.mpr ⟨fun s hs => (dumpLoop_bounds source _ s hs).1, ih⟩
  | case3 i hlt =>
      rw [dumpLoop, if_neg hlt]
      exact .nil

theorem dumpLoop_isToken (hends : RunEnds source i) :
    ∀ r ∈ dumpLoop source i, r.IsToken source := by
  induction i using dumpLoop.induct source with
  | case1 i hlt hspace ih =>
      rw [dumpLoop, if_pos hlt, if_pos hspace]
      refine ih fun _ _ hdigit => ?_
      -- a blank is no digit
      rw [Nat.add_sub_cancel] at hdigit
      have hnot := not_blank_of_continues (isIdentContinue_of_isDigit hdigit)
      rw [hspace] at hnot
      cases hnot
  | case2 i hlt hspace ih =>
      obtain ⟨htoken, hnext⟩ := report_isToken hlt (by simpa using hspace) hends
      rw [dumpLoop, if_pos hlt, if_neg hspace]
      rintro r (_ | ⟨_, hr⟩)
      · exact htoken
      · exact ih hnext r hr
  | case3 i hlt =>
      rw [dumpLoop, if_neg hlt]
      intro r hr
      cases hr

theorem dumpLoop_covers (source : List UInt8) (i : Nat) {j : Nat} (hij : i ≤ j)
    (hj : j < source.length) :
    (∃ r ∈ dumpLoop source i, r.start ≤ j ∧ j < r.stop)
      ↔ isWhitespace (source.getD j 0) = false := by
  induction i using dumpLoop.induct source with
  | case1 i hlt hspace ih =>
      rw [dumpLoop, if_pos hlt, if_pos hspace]
      rcases Nat.eq_or_lt_of_le hij with rfl | hlt'
      · rw [hspace]
        refine ⟨?_, fun h => by cases h⟩
        rintro ⟨r, hr, hstart, -⟩
        have := (dumpLoop_bounds source _ r hr).1
        omega
      · exact ih hlt'
  | case2 i hlt hspace ih =>
      rw [dumpLoop, if_pos hlt, if_neg hspace]
      by_cases hin : j < (report source i).stop
      · have hblank : isWhitespace (source.getD j 0) = false := by
          rcases Nat.eq_or_lt_of_le hij with rfl | hlt'
          · simpa using hspace
          · exact not_blank_of_label ((report_bytes hlt).2.1 j hlt' hin)
        refine ⟨fun _ => hblank, fun _ => ⟨_, List.mem_cons_self, ?_, hin⟩⟩
        rw [report_start]
        exact hij
      · rw [← ih (not_lt.mp hin)]
        constructor
        · rintro ⟨r, hr, hspan⟩
          rcases List.mem_cons.mp hr with rfl | hr
          · exact absurd hspan.2 hin
          · exact ⟨r, hr, hspan⟩
        · rintro ⟨r, hr, hspan⟩
          exact ⟨r, List.mem_cons_of_mem _ hr, hspan⟩
  | case3 i hlt => omega

end

/-! ## The dump is a lexing -/

/-- The reported tokens with their labels. -/
def labelled (source : List UInt8) (rs : List Report) : List (Label × List UInt8) :=
  rs.map fun r => (r.label, r.text source)

/-- The reported texts, joined by single spaces. -/
def joined (source : List UInt8) (rs : List Report) : List UInt8 :=
  [0x20].intercalate (rs.map fun r => r.text source)

/-- Spans that cut a source into its tokens: they stand in order without overlap, they cover the
bytes that are not blank and no others, each is a token that cannot be extended, and the tokens
written down with single spaces between them are the same tokens again. -/
structure Lexing (source : List UInt8) (rs : List Report) : Prop where
  bounds : ∀ r ∈ rs, r.start < r.stop ∧ r.stop ≤ source.length
  increasing : rs.Pairwise fun r s => r.stop ≤ s.start
  covers : ∀ j, j < source.length →
    ((∃ r ∈ rs, r.start ≤ j ∧ j < r.stop) ↔ isWhitespace (source.getD j 0) = false)
  isToken : ∀ r ∈ rs, r.IsToken source
  again : labelled (joined source rs) (reports (joined source rs)) = labelled source rs

theorem labelled_reports (source : List UInt8) :
    labelled source (reports source) = tokens.lex source := by
  rw [labelled, reports, dumpLoop_lex, List.drop_zero]

/-- **The token dump is a faithful lexing** of every source. The loop ends for every source, since
`dumpLoop` is a total function: each iteration moves the index. -/
theorem token_dump_faithful (source : List UInt8) : Lexing source (reports source) where
  bounds := fun r hr => (dumpLoop_bounds source 0 r hr).2
  increasing := dumpLoop_increasing source 0
  covers := fun _ hj => dumpLoop_covers source 0 (Nat.zero_le _) hj
  isToken := dumpLoop_isToken fun h0 => absurd h0 (Nat.lt_irrefl 0)
  again := by
    have htexts : joined source (reports source)
        = [0x20].intercalate ((tokens.lex source).map Prod.snd) := by
      rw [joined, ← labelled_reports, labelled, List.map_map]
      rfl
    have hsep : ∀ label, tokens.more label 0x20 = false := by
      intro label
      cases label <;> decide
    rw [labelled_reports, labelled_reports, htexts, Munch.lex_spaced (by decide) hsep]

/-- Identifiers and numbers without a blank between them. -/
example : labelled (ascii "1a2 b_3+") (reports (ascii "1a2 b_3+"))
    = [(.number, ascii "1"), (.identifier, ascii "a2"), (.identifier, ascii "b_3"),
      (.punctuator, ascii "+")] := by decide +kernel

end C11Omo.Zcc
