import EcmaLex.Proofs.Quoted.Items
import EcmaLex.Proofs.Source.ByteCursor
import EcmaLex.Proofs.Word.Flags
import EcmaLex.Scanner.Step

/-!
# Where strings end

The inside of a string is the longest run of items after its quote.  If the quote comes next,
the string ends with it.  Otherwise the run was cut off, by a line end or by the end of the
text, and no string is there.  Either way the text that is kept is the text as it is written.

A run of plain characters is passed in one go, since what may end it is a flag of the
character.  The quote of the other sort and the characters after a backslash end such a run,
but not the string.

## Main definitions

* `StringLiteral.Cut` — what cuts a string off, and how much of it the token takes.

## Main results

* `StringLiteral.body_between` — **the inside of a string** is the longest run of items.
* `isString_of_quote` — **strings end where the grammar says**, and their text is verbatim.
-/

namespace EcmaLex

open Reader Quoted

namespace StringLiteral

/-- Whether a character other than the backslash stands for itself in a string with the given
quotes. -/
def isPlain (quote c : Char) : Bool := c != quote && c != '\r' && c != '\n'

/-- What cuts a string off, which part of it the token takes, and what is left: the end of the
text, a backslash that is last there, or a line end, which is not taken. -/
inductive Cut : List Char → List Char → List Char → Prop where
  /-- Nothing is left of the text. -/
  | endOfText : Cut [] [] []
  /-- The text ends with a backslash that escapes nothing. -/
  | backslash : Cut ['\\'] ['\\'] []
  /-- A line ends. -/
  | lineEnd {c : Char} (hc : c = '\r' ∨ c = '\n') (rest : List Char) :
      Cut (c :: rest) [] (c :: rest)

variable {σ : Type} [ExactSource σ] {quote c : Char} {before after : List Char} {text : String}

/-- How the inside of a string is read: up to the quote, or up to what cuts it off. -/
def Outcome (σ : Type) [ExactSource σ] (quote : Char) (before after : List Char) (text : String)
    (result : Bool × String × Reader σ) : Prop :=
  ∃ inside rest, Munch (items (isPlain quote)) after inside rest ∧
    ((∃ behind, rest = quote :: behind ∧
        result = (true, text ++ .ofList inside, between (before ++ inside ++ [quote]) behind)) ∨
      ∃ taken left, Cut rest taken left ∧
        result = (false, text ++ .ofList (inside ++ taken),
          between (before ++ (inside ++ taken)) left))

/-- What is read after some items is read after all of them. -/
theorem Outcome.items {w : List Char} {result : Bool × String × Reader σ}
    (hm : ∀ u v, Munch (Quoted.items (isPlain quote)) after u v →
      Munch (Quoted.items (isPlain quote)) (w ++ after) (w ++ u) v)
    (h : Outcome σ quote (before ++ w) after (text ++ .ofList w) result) :
    Outcome σ quote before (w ++ after) text result := by
  obtain ⟨inside, rest, hmunch, h⟩ := h
  refine ⟨w ++ inside, rest, hm _ _ hmunch, ?_⟩
  rcases h with ⟨behind, rfl, rfl⟩ | ⟨taken, left, hcut, rfl⟩
  · refine .inl ⟨behind, rfl, ?_⟩
    simp [String.append_assoc]
  · refine .inr ⟨taken, left, hcut, ?_⟩
    simp [String.append_assoc]

/-- A string that is cut off at once. -/
theorem Outcome.cut (before : List Char) (text : String) {taken left : List Char}
    (h : Cut after taken left) (hn : Munch (Quoted.items (isPlain quote)) after [] after) :
    Outcome σ quote before after text
      (false, text ++ .ofList taken, between (before ++ taken) left) :=
  ⟨[], after, hn, .inr ⟨taken, left, h, rfl⟩⟩

/-- A backslash takes a character along, or a line break of two. -/
theorem takeEscaped_between (text : String) (before after : List Char) :
    after = [] ∧ takeEscaped text (between before after : Reader σ) = (text, between before []) ∨
    (∃ rest, after = '\r' :: '\n' :: rest ∧
      takeEscaped text (between before after : Reader σ) =
        (text ++ .ofList ['\r', '\n'], between (before ++ ['\r', '\n']) rest)) ∨
    ∃ c rest, after = c :: rest ∧ (c = '\r' → rest.head? ≠ some '\n') ∧
      takeEscaped text (between before after : Reader σ) =
        (text ++ .ofList [c], between (before ++ [c]) rest) := by
  cases after with
  | nil => exact .inl ⟨rfl, rfl⟩
  | cons c rest =>
    refine .inr ?_
    unfold takeEscaped
    dsimp only [char?_between, List.head?_cons, take, Option.elim]
    rw [advance_between_cons, isAt_between]
    by_cases h : (c == '\r' && rest.head? == some '\n') = true
    · obtain ⟨rfl, hn⟩ : c = '\r' ∧ rest.head? = some '\n' := by simpa using h
      obtain ⟨rest, rfl⟩ := List.head?_eq_some_iff.1 hn
      refine .inl ⟨rest, rfl, ?_⟩
      rw [if_pos h]
      simp [String.ext_iff]
    · refine .inr ⟨c, rest, rfl, ?_, ?_⟩
      · rintro rfl hn
        exact h (by rw [hn]; rfl)
      · rw [if_neg h]
        simp

/-- Passing a character that stands for itself. -/
theorem Outcome.plain {a : List Char} {result : Bool × String × Reader σ}
    (hc : isPlain quote c = true) (hb : c ≠ '\\')
    (h : Outcome σ quote (before ++ [c]) a (text.push c) result) :
    Outcome σ quote before (c :: a) text result := by
  have hpush : text.push c = text ++ .ofList [c] := by simp
  rw [hpush] at h
  exact Outcome.items (w := [c]) (fun u v => munch_plain hc hb) h

theorem body_between_nil (quote : Char) (text : String) (before : List Char) :
    body quote text (between before [] : Reader σ) = (false, text, between before []) := by
  rw [body]
  split
  · rfl
  · next h => cases h

/-- Passing a backslash and what it takes along. -/
theorem Outcome.escaped {a : List Char} {text' : String} {r' : Reader σ}
    (he : takeEscaped (text.push '\\') (between (before ++ ['\\']) a) = (text', r'))
    (h : ∀ before after, r' = between before after →
      Outcome σ quote before after text' (body quote text' r')) :
    Outcome σ quote before ('\\' :: a) text (body quote text' r') := by
  have hpush : ∀ w, text.push '\\' ++ .ofList w = text ++ .ofList ('\\' :: w) := by
    simp [String.ext_iff]
  rcases takeEscaped_between (σ := σ) (text.push '\\') (before ++ ['\\']) a with
    ⟨rfl, ht⟩ | ⟨rest, rfl, ht⟩ | ⟨d, rest, rfl, hd, ht⟩
  · -- nothing is escaped, and nothing is left
    rw [ht] at he
    cases he
    have hn : Munch (Quoted.items (isPlain quote)) ['\\'] [] ['\\'] := by
      refine munch_nil ?_
      rintro _ ⟨⟩
      rfl
    rw [body_between_nil]
    exact Outcome.cut _ _ .backslash hn
  · rw [ht, hpush, List.append_assoc] at he
    cases he
    exact Outcome.items (w := ['\\', '\r', '\n']) (fun u v => munch_lineBreak) (h _ _ rfl)
  · rw [ht, hpush, List.append_assoc] at he
    cases he
    exact Outcome.items (w := ['\\', d]) (fun u v => munch_escape hd) (h _ _ rfl)

/-- **The inside of a string** is the longest run of items. -/
theorem body_between (hq : quote = '"' ∨ quote = '\'') (text : String) (r : Reader σ) :
    ∀ before after, r = between before after →
      Outcome σ quote before after text (body quote text r) := by
  fun_induction body quote text r with
  | case1 text r h =>
    rintro before after rfl
    obtain rfl : after = [] := List.head?_eq_none_iff.1 h
    have hn : Munch (Quoted.items (isPlain quote)) [] [] [] := munch_nil fun c hc => by cases hc
    simpa using Outcome.cut (σ := σ) before text .endOfText hn
  | case2 text r c hr hc ih =>
    rintro before after rfl
    obtain ⟨a, rfl⟩ := List.head?_eq_some_iff.1 hr
    rw [advance_between_cons] at ih ⊢
    -- a character without the flag is neither a quote nor a line end
    rw [CharFlags.isStringRunEnd_ofChar] at hc
    simp only [Bool.not_eq_true', Bool.or_eq_false_iff, beq_eq_false_iff_ne] at hc
    obtain ⟨⟨⟨⟨hsingle, hdouble⟩, hn⟩, hr⟩, hb⟩ := hc
    have hcq : c ≠ quote := by rcases hq with rfl | rfl <;> assumption
    exact Outcome.plain (by simp [isPlain, hcq, hn, hr]) hb (ih _ _ rfl)
  | case3 text r c hr hc hb text' r' he ih =>
    rintro before after rfl
    obtain ⟨a, rfl⟩ := List.head?_eq_some_iff.1 hr
    obtain rfl : c = '\\' := by simpa using hb
    rw [advance_between_cons] at he
    exact Outcome.escaped he ih
  | case4 text r c hr hc hb hcq =>
    rintro before after rfl
    obtain ⟨a, rfl⟩ := List.head?_eq_some_iff.1 hr
    obtain rfl : c = quote := by simpa using hcq
    refine ⟨[], c :: a, munch_nil ?_, .inl ⟨a, rfl, by simp⟩⟩
    rintro _ ⟨⟩
    rw [if_neg (by simpa using hb)]
    simp [isPlain]
  | case5 text r c hr hc hb hcq hl =>
    rintro before after rfl
    obtain ⟨a, rfl⟩ := List.head?_eq_some_iff.1 hr
    have hl : c = '\r' ∨ c = '\n' := by simpa [or_comm] using hl
    have hn : Munch (Quoted.items (isPlain quote)) (c :: a) [] (c :: a) := by
      refine munch_nil ?_
      rintro _ ⟨⟩
      rw [if_neg (by simpa using hb)]
      rcases hl with rfl | rfl <;> simp [isPlain]
    simpa using Outcome.cut (σ := σ) before text (.lineEnd hl a) hn
  | case6 text r c hr hc hb hcq hl ih =>
    rintro before after rfl
    obtain ⟨a, rfl⟩ := List.head?_eq_some_iff.1 hr
    rw [advance_between_cons] at ih ⊢
    have hb : c ≠ '\\' := by simpa using hb
    have hplain : isPlain quote c = true := by
      simp only [Bool.or_eq_true, beq_iff_eq, not_or] at hcq hl
      simp [isPlain, hcq, hl]
    exact Outcome.plain hplain hb (ih _ _ rfl)

end StringLiteral

/-! ### Strings of a text -/

open StringLiteral

/-- The token is a string of the text, or a string that was cut off, and the reader is after
it: the string that begins after `before` with the given quote, with `after` to follow. -/
def Token.IsString (σ : Type) [ExactSource σ] (t : Token) (r : Reader σ) (before : List Char)
    (quote : Char) (after : List Char) : Prop :=
  ∃ inside rest, Munch (items (isPlain quote)) after inside rest ∧
    ((∃ behind, rest = quote :: behind ∧ t.kind = .string ∧ t.error? = none ∧
        t.span = ⟨extent σ before, extent σ (before ++ quote :: (inside ++ [quote]))⟩ ∧
        t.cooked = .ofList inside ∧ t.raw = "" ∧
        r = between (before ++ quote :: (inside ++ [quote])) behind) ∨
      ∃ taken left, Cut rest taken left ∧ t.kind = .illegal ∧
        t.error? = some ⟨⟨extent σ before, extent σ before + 1⟩, .unterminatedString⟩ ∧
        t.span = ⟨extent σ before, extent σ (before ++ quote :: (inside ++ taken))⟩ ∧
        t.cooked = .ofList (inside ++ taken) ∧ t.raw = "" ∧
        r = between (before ++ quote :: (inside ++ taken)) left)

variable {σ : Type} [ExactSource σ] {quote : Char} {before after : List Char}

theorem isString_stringLiteral (hq : quote = '"' ∨ quote = '\'') (before after : List Char)
    (lineBreak : Bool) :
    let l := stringLiteral quote (between before (quote :: after) : Reader σ)
    (l.toToken (extent σ before) lineBreak).IsString σ l.reader before quote after := by
  obtain ⟨inside, rest, hm, h⟩ := body_between (σ := σ) hq "" _ (before ++ [quote]) after rfl
  -- what is behind the reader is the quote and what was read after it
  have hsplit : ∀ w, before ++ [quote] ++ w = before ++ quote :: w := by simp
  unfold stringLiteral
  rw [advance_between_cons, position_between]
  refine ⟨inside, rest, hm, ?_⟩
  rcases h with ⟨behind, rfl, h⟩ | ⟨taken, left, hcut, h⟩
  · rw [List.append_assoc, hsplit, String.empty_append] at h
    rw [h]
    exact .inl ⟨behind, rfl, rfl, rfl, congrArg (Span.mk _) (position_between _ _), rfl, rfl, rfl⟩
  · rw [hsplit, String.empty_append] at h
    rw [h]
    exact .inr ⟨taken, left, hcut, rfl, rfl, congrArg (Span.mk _) (position_between _ _), rfl, rfl,
      rfl⟩

/-- At a quote a string is read. -/
theorem step_of_quote (hq : quote = '"' ∨ quote = '\'') (settings : Settings) (lineBreak : Bool)
    (findings : Findings) {r : Reader σ} (hr : r.char? = some quote) :
    step settings lineBreak findings r =
      .lexeme lineBreak findings (stringLiteral quote r) := by
  rw [step, hr]
  rcases hq with rfl | rfl <;> rfl

/-- **Strings end where the grammar says**, and their text is verbatim.  Scanning from a quote
takes the longest run of items after it, where an item is a character other than the quote, a
backslash and the line ends, or a backslash with the character or the line break of two
characters after it.  If the quote comes next, the token is a string that ends with it, and its
text is that of the run.  Otherwise the text is over, apart from a backslash that may be left,
or a line ends; then the token is an error at the opening quote, and its text is all that it
takes after that quote. -/
theorem isString_of_quote (hq : quote = '"' ∨ quote = '\'') (settings : Settings)
    (lineBreak : Bool) (findings : Findings) (before after : List Char) :
    let scanned :=
      scanToken settings lineBreak findings (between before (quote :: after) : Reader σ)
    scanned.token.IsString σ scanned.reader before quote after := by
  rw [scanToken_of_step_eq_lexeme (step_of_quote hq settings lineBreak findings rfl),
    position_between]
  exact isString_stringLiteral hq before after lineBreak

/-- A string with an escaped quote and a quote of the other sort, which a line end cuts off. -/
theorem isString_of_quote_lineEnd :
    let after := ['\\', '"', '\'', '\n', '"']
    let scanned := scanToken {} false {} (between ['é'] ('"' :: after) : Reader ByteCursor)
    ('"' = '"' ∨ '"' = '\'') ∧ scanned.token.kind = .illegal ∧ scanned.token.span = ⟨2, 6⟩ ∧
      scanned.token.IsString ByteCursor scanned.reader ['é'] '"' after := by
  intro after scanned
  refine ⟨.inl rfl, ?_, ?_, isString_of_quote (.inl rfl) {} false {} ['é'] after⟩
  · decide +kernel
  · decide +kernel

end EcmaLex
