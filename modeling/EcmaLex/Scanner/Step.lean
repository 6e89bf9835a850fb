import EcmaLex.Lexeme.Gap
import EcmaLex.Lexeme.Numeral
import EcmaLex.Lexeme.Punctuation
import EcmaLex.Lexeme.StringLiteral
import EcmaLex.Lexeme.Template
import EcmaLex.Lexeme.Word

/-!
# Scanning one token

The first character decides which rule reads on.  A rule either finds a piece of
the gap before the token, after which the scan goes on, or a lexeme.

The characters of punctuators need a second look.  A slash may open a comment, a
point a number, and the two halves of an HTML-like comment begin as operators.
The opening of such a comment counts anywhere; its closing counts only where a
line terminator came before it, since that is where it makes the rest of the
line a comment.  Module code has no such comments, and holding one is an error.

## Main definitions

* `Step` — what one rule found.
* `step` — the choice of the rule.
* `scanToken` — the next token.

## Main results

* `remaining_step_le` — a rule that has a character to start from uses it up.
* `remaining_scanToken_lt` — every token but the last one shortens the text.
-/

namespace EcmaLex

/-- What one rule found, together with whether a line terminator was found since the
last token. -/
inductive Step (σ : Type) where
  /-- A piece of the gap between two tokens. -/
  | gap (lineBreak : Bool) (findings : Findings) (reader : Reader σ)
  /-- A lexeme. -/
  | lexeme (lineBreak : Bool) (findings : Findings) (lexeme : Lexeme σ)

/-- The reader after what was found. -/
def Step.reader {σ : Type} : Step σ → Reader σ
  | gap _ _ r => r
  | lexeme _ _ l => l.reader

variable {σ : Type} [SearchableSource σ]

/-- A piece of text with an error that spans it. -/
def illegalSpan (start : Nat) (cause : Cause) (r : Reader σ) : Lexeme σ :=
  .illegal ⟨⟨start, r.position⟩, cause⟩ {} r

/-- A comment up to the end of the line that is opened by an HTML-like mark, with the
head on the last character of the mark. -/
def htmlComment (settings : Settings) (lineBreak : Bool) (findings : Findings) (start : Nat)
    (r : Reader σ) : Step σ :=
  if settings.isModule then
    .lexeme lineBreak findings (illegalSpan start .htmlCommentInModule r)
  else .gap lineBreak findings (Gap.lineComment r)

/-- What a punctuator that began at `start` turns out to be, with the head after it. -/
def operator (settings : Settings) (lineBreak : Bool) (findings : Findings) (start : Nat)
    (p : Punctuator) (r : Reader σ) : Step σ :=
  let plain (p : Punctuator) (r : Reader σ) : Step σ :=
    .lexeme lineBreak findings (.ofKind (.punctuator p) r)
  match p with
  | .lt =>
    if r.isAt '!' then
      -- an opening that turns out to be none gives its exclamation mark back
      let r' := r.advance
      if r'.isAt '-' && r'.peek == some '-' then
        htmlComment settings lineBreak { findings with htmlComment := true } start r'.advance
      else plain .lt (r'.pushBack '!')
    else plain .lt r
  | .dec =>
    if r.isAt '>' && lineBreak then htmlComment settings lineBreak findings start r
    else plain .dec r
  | .div =>
    if r.isAt '/' then
      -- only the line comments with a third mark may set a URL
      if r.peek == some '#' || r.peek == some '@' then
        let (findings, r) := Gap.magicComment findings r.advance.advance
        .gap lineBreak findings r
      else .gap lineBreak findings (Gap.lineComment r)
    else if r.isAt '*' then
      let (closed, lineBreak, r) := Gap.blockComment lineBreak r
      if closed then .gap lineBreak findings r
      else .lexeme lineBreak findings (illegalSpan start .unterminatedComment r)
    else plain .div r
  | .period =>
    if r.isAtAny isDecimalDigit then
      .lexeme lineBreak findings (fractionNumeral settings start r)
    else if r.isAt '.' && r.peek == some '.' then plain .ellipsis r.advance.advance
    else plain .period r
  | .conditional =>
    if r.isAt '.' then
      -- a point before a digit belongs to a number, as in `a?.5:b`
      let r' := r.advance
      if r'.isAtAny isDecimalDigit then plain .conditional (r'.pushBack '.')
      else plain .questionPeriod r'
    else plain .conditional r
  | p => plain p r

/-- Reads what the character under the head begins. -/
def step (settings : Settings) (lineBreak : Bool) (findings : Findings) (r : Reader σ) :
    Step σ :=
  match r.char? with
  | none => .lexeme lineBreak findings (.ofKind .endOfInput r)
  | some c =>
    if isBlank c then
      let (lineBreak, r) := Gap.whiteSpace lineBreak r
      .gap lineBreak findings r
    else if isIdentifierStart c then .lexeme lineBreak findings (word "" c r)
    else if isDecimalDigit c then
      let l := numeral settings c r
      let findings := findings.noteLegacyOctal l.text.form? ⟨r.position, l.reader.position⟩
      .lexeme lineBreak findings l
    else if c == '"' || c == '\'' then .lexeme lineBreak findings (stringLiteral c r)
    else if c == '\x60' then .lexeme lineBreak findings (templatePiece r.position r.advance)
    else if c == '#' then .lexeme lineBreak findings (privateName r)
    else
      match Punctuator.ofChar c with
      | some p =>
        let (p, r') := p.munch r.advance
        operator settings lineBreak findings r.position p r'
      | none =>
        .lexeme lineBreak findings (.illegal ⟨r.charSpan, .invalidCharacter⟩ {} r.advance)

/-! ### Progress -/

theorem remaining_htmlComment_le (settings : Settings) (lineBreak : Bool) (findings : Findings)
    (start : Nat) (r : Reader σ) :
    (htmlComment settings lineBreak findings start r).reader.remaining ≤ r.remaining := by
  unfold htmlComment
  split
  · exact Nat.le_refl _
  · exact r.remaining_skipTo_le _

theorem remaining_operator_le (settings : Settings) (lineBreak : Bool) (findings : Findings)
    (start : Nat) (p : Punctuator) (r : Reader σ) :
    (operator settings lineBreak findings start p r).reader.remaining ≤ r.remaining := by
  have h₁ := r.remaining_advance_le
  have h₂ := r.advance.remaining_advance_le
  unfold operator
  dsimp only
  split
  · split
    · next h =>
      split
      · exact Nat.le_trans (remaining_htmlComment_le _ _ _ _ _) (Nat.le_trans h₂ h₁)
      · exact Reader.remaining_pushBack_advance (Reader.char?_isSome_of_isAt h) '!'
    · exact Nat.le_refl _
  · split
    · exact remaining_htmlComment_le _ _ _ _ _
    · exact Nat.le_refl _
  · split
    · split
      · exact Nat.le_trans (Gap.remaining_magicComment_le _ _) (Nat.le_trans h₂ h₁)
      · exact r.remaining_skipTo_le _
    · split
      · have h := Gap.remaining_blockComment_le lineBreak r
        split <;> exact h
      · exact Nat.le_refl _
  · split
    · exact remaining_fractionNumeral_le _ _ _
    · split
      · exact Nat.le_trans h₂ h₁
      · exact Nat.le_refl _
  · split
    · next h =>
      split
      · exact Reader.remaining_pushBack_advance (Reader.char?_isSome_of_isAt h) '.'
      · exact h₁
    · exact Nat.le_refl _
  · exact Nat.le_refl _

/-- A rule that has a character to start from uses it up. -/
theorem remaining_step_le (settings : Settings) (lineBreak : Bool) (findings : Findings)
    {r : Reader σ} {c : Char} (h : r.char? = some c) :
    (step settings lineBreak findings r).reader.remaining ≤ r.advance.remaining := by
  unfold step
  rw [h]
  dsimp only
  split
  · next hc =>
    rw [Gap.whiteSpace]
    split
    · next hn => rw [h] at hn; cases hn
    · next d hd =>
      rw [h] at hd
      cases hd
      rw [if_pos hc]
      exact Gap.remaining_whiteSpace_le _ _
  · split
    · exact remaining_word_le _ _ _
    · split
      · exact remaining_numeral_le _ _ _
      · split
        · exact remaining_stringLiteral_le _ _
        · split
          · exact remaining_templatePiece_le _ _
          · split
            · exact remaining_privateName_le _
            · split
              · exact Nat.le_trans (remaining_operator_le _ _ _ _ _ _)
                  (Punctuator.remaining_munch_le _ _)
              · exact Nat.le_refl _

theorem remaining_step_lt (settings : Settings) (lineBreak : Bool) (findings : Findings)
    {r : Reader σ} (h : r.char?.isSome = true) :
    (step settings lineBreak findings r).reader.remaining < r.remaining := by
  obtain ⟨c, hc⟩ := Option.isSome_iff_exists.1 h
  exact Nat.lt_of_le_of_lt (remaining_step_le _ _ _ hc) (Reader.remaining_advance_lt h)

theorem step_of_char?_eq_none (settings : Settings) (lineBreak : Bool) (findings : Findings)
    {r : Reader σ} (h : r.char? = none) :
    step settings lineBreak findings r = .lexeme lineBreak findings (.ofKind .endOfInput r) := by
  rw [step, h]

theorem remaining_lt_of_step_eq_gap {settings : Settings} {lineBreak lineBreak' : Bool}
    {findings findings' : Findings} {r r' : Reader σ}
    (h : step settings lineBreak findings r = .gap lineBreak' findings' r') :
    r'.remaining < r.remaining := by
  rcases hc : r.char? with _ | c
  · rw [step_of_char?_eq_none _ _ _ hc] at h
    cases h
  · have := remaining_step_lt settings lineBreak findings (r := r) (by rw [hc]; rfl)
    rwa [h] at this

/-! ### Tokens -/

/-- A token, and the state of the text after it. -/
structure Scanned (σ : Type) where
  /-- The token. -/
  token : Token
  /-- What has been noted so far. -/
  findings : Findings
  /-- The reader, on the first character after the token. -/
  reader : Reader σ

/-- Reads the next token.  At the end of the text this is the end of input, again and
again. -/
def scanToken (settings : Settings) (lineBreak : Bool) (findings : Findings) (r : Reader σ) :
    Scanned σ :=
  match _h : step settings lineBreak findings r with
  | .gap lineBreak findings r' => scanToken settings lineBreak findings r'
  | .lexeme lineBreak findings l => ⟨l.toToken r.position lineBreak, findings, l.reader⟩
  termination_by r.remaining
  decreasing_by exact remaining_lt_of_step_eq_gap _h

theorem scanToken_of_step_eq_gap {settings : Settings} {lineBreak lineBreak' : Bool}
    {findings findings' : Findings} {r r' : Reader σ}
    (h : step settings lineBreak findings r = .gap lineBreak' findings' r') :
    scanToken settings lineBreak findings r = scanToken settings lineBreak' findings' r' := by
  rw [scanToken]
  split
  · next he =>
    rw [h] at he
    cases he
    rfl
  · next he =>
    rw [h] at he
    cases he

theorem scanToken_of_step_eq_lexeme {settings : Settings} {lineBreak lineBreak' : Bool}
    {findings findings' : Findings} {r : Reader σ} {l : Lexeme σ}
    (h : step settings lineBreak findings r = .lexeme lineBreak' findings' l) :
    scanToken settings lineBreak findings r =
      ⟨l.toToken r.position lineBreak', findings', l.reader⟩ := by
  rw [scanToken]
  split
  · next he =>
    rw [h] at he
    cases he
  · next he =>
    rw [h] at he
    cases he
    rfl

theorem remaining_scanToken_le (settings : Settings) (lineBreak : Bool) (findings : Findings)
    (r : Reader σ) :
    (scanToken settings lineBreak findings r).reader.remaining ≤ r.remaining := by
  fun_induction scanToken settings lineBreak findings r with
  | case1 _ _ _ _ _ _ h ih =>
    exact Nat.le_trans ih (Nat.le_of_lt (remaining_lt_of_step_eq_gap h))
  | case2 lineBreak findings r lineBreak' findings' l h =>
    rcases hc : r.char? with _ | c
    · rw [step_of_char?_eq_none _ _ _ hc] at h
      cases h
      exact Nat.le_refl _
    · have := remaining_step_lt settings lineBreak findings (r := r) (by rw [hc]; rfl)
      rw [h] at this
      exact Nat.le_of_lt this

/-- Every token but the end of input shortens the text. -/
theorem remaining_scanToken_lt (settings : Settings) (lineBreak : Bool) (findings : Findings)
    (r : Reader σ)
    (hk : (scanToken settings lineBreak findings r).token.kind ≠ .endOfInput) :
    (scanToken settings lineBreak findings r).reader.remaining < r.remaining := by
  fun_induction scanToken settings lineBreak findings r with
  | case1 _ _ _ _ _ _ h ih => exact Nat.lt_trans (ih hk) (remaining_lt_of_step_eq_gap h)
  | case2 lineBreak findings r lineBreak' findings' l h =>
    rcases hc : r.char? with _ | c
    · rw [step_of_char?_eq_none _ _ _ hc] at h
      cases h
      exact absurd rfl hk
    · have := remaining_step_lt settings lineBreak findings (r := r) (by rw [hc]; rfl)
      rwa [h] at this

end EcmaLex
