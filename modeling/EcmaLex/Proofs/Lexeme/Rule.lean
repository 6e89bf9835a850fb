import EcmaLex.Proofs.Character.Class
import EcmaLex.Scanner.Step

/-!
# What the rules find

The character under the head chooses the rule, and every rule finds lexemes of its
own, or pieces of a gap.  What is to be known of all lexemes has one case for each
rule.

The rules for punctuators also read comments, and these are what is noted beside the tokens,
apart from literals.

## Main definitions

* `Step.OfPunctuator`, `Step.Chosen` — what can be found at a punctuator, and in one step.
* `Lexeme.FoundAt` — the lexemes that the rules find at a place.
* `Punctuator.opensComment` — a comment begins with the punctuator.
* `Punctuator.Notes` — what is noted at a punctuator.

## Main results

* `ofPunctuator_operator`, `chosen_step` — **all that a step can do**.
* `foundAt_of_step` — **every lexeme is one of these**.
* `notes_operator` — **nothing else is noted** at a punctuator.
* `gap_of_step` — **a piece of a gap begins with a blank or with a punctuator**.
* `isGapOrError_of_opensComment` — where a comment begins, there is no token.
-/

namespace EcmaLex

variable {σ : Type} [SearchableSource σ]

/-! ### What a step can do -/

/-- Whether a comment begins with the punctuator, where the reader is after it. -/
def Punctuator.opensComment (p : Punctuator) (lineBreak : Bool) (r : Reader σ) : Bool :=
  match p with
  | .lt => r.isAt '!' && (r.advance.isAt '-' && r.advance.peek == some '-')
  | .dec => r.isAt '>' && lineBreak
  | .div => r.isAt '/' || r.isAt '*'
  | _ => false

/-- What the rule for punctuators finds at one, with the reader after it. -/
inductive Step.OfPunctuator (settings : Settings) (lineBreak : Bool) (f : Findings) (start : Nat)
    (r : Reader σ) : Punctuator → Step σ → Prop where
  /-- The opening of an HTML-like comment. -/
  | htmlOpening (hmark : r.isAt '!' = true) (hdash : r.advance.isAt '-' = true)
      (hdash' : r.advance.peek = some '-') :
      OfPunctuator settings lineBreak f start r .lt
        (htmlComment settings lineBreak { f with htmlComment := true } start r.advance.advance)
  /-- The closing of an HTML-like comment. -/
  | htmlClosing (hmark : r.isAt '>' = true) (hline : lineBreak = true) :
      OfPunctuator settings lineBreak f start r .dec (htmlComment settings lineBreak f start r)
  /-- A comment up to the end of the line, which may set something. -/
  | magicComment (hslash : r.isAt '/' = true) (hmark : r.peek = some '#' ∨ r.peek = some '@') :
      OfPunctuator settings lineBreak f start r .div
        (.gap lineBreak (Gap.magicComment f r.advance.advance).1
          (Gap.magicComment f r.advance.advance).2)
  /-- Another comment up to the end of the line. -/
  | lineComment (hslash : r.isAt '/' = true) :
      OfPunctuator settings lineBreak f start r .div (.gap lineBreak f (Gap.lineComment r))
  /-- A comment with a closing. -/
  | blockComment (hstar : r.isAt '*' = true) (hclosed : (Gap.blockComment lineBreak r).1 = true) :
      OfPunctuator settings lineBreak f start r .div
        (.gap (Gap.blockComment lineBreak r).2.1 f (Gap.blockComment lineBreak r).2.2)
  /-- A comment without one. -/
  | openComment (hstar : r.isAt '*' = true) (hopen : (Gap.blockComment lineBreak r).1 = false) :
      OfPunctuator settings lineBreak f start r .div
        (.lexeme (Gap.blockComment lineBreak r).2.1 f
          (illegalSpan start .unterminatedComment (Gap.blockComment lineBreak r).2.2))
  /-- A number that begins with its point. -/
  | fractionNumeral (hdigit : r.isAtAny isDecimalDigit = true) :
      OfPunctuator settings lineBreak f start r .period
        (.lexeme lineBreak f (fractionNumeral settings start r))
  /-- Three points. -/
  | ellipsis (hpoint : r.isAt '.' = true) (hpoint' : r.peek = some '.') :
      OfPunctuator settings lineBreak f start r .period
        (.lexeme lineBreak f (.ofKind (.punctuator .ellipsis) r.advance.advance))
  /-- A question mark and a point, unless the point begins a number. -/
  | questionPeriod (hpoint : r.isAt '.' = true)
      (hdigit : r.advance.isAtAny isDecimalDigit = false) :
      OfPunctuator settings lineBreak f start r .conditional
        (.lexeme lineBreak f (.ofKind (.punctuator .questionPeriod) r.advance))
  /-- The punctuator alone, after a character behind it was looked at and given back. -/
  | givenBack {p : Punctuator} {c : Char} (hc : r.isAt c = true)
      (hcomment : p.opensComment lineBreak r = false) :
      OfPunctuator settings lineBreak f start r p
        (.lexeme lineBreak f (.ofKind (.punctuator p) (r.advance.pushBack c)))
  /-- The punctuator alone. -/
  | plain {p : Punctuator} (hcomment : p.opensComment lineBreak r = false) :
      OfPunctuator settings lineBreak f start r p
        (.lexeme lineBreak f (.ofKind (.punctuator p) r))

/-- **All that can be found at a punctuator.** -/
theorem ofPunctuator_operator (settings : Settings) (lineBreak : Bool) (f : Findings)
    (start : Nat) (p : Punctuator) (r : Reader σ) :
    Step.OfPunctuator settings lineBreak f start r p
      (operator settings lineBreak f start p r) := by
  unfold operator
  dsimp only
  split
  · split
    · next hmark =>
      split
      · next hdashes =>
        obtain ⟨hdash, hdash'⟩ := Bool.and_eq_true_iff.1 hdashes
        exact .htmlOpening hmark hdash (beq_iff_eq.1 hdash')
      · next hdashes => exact .givenBack hmark (by simp [Punctuator.opensComment, hdashes])
    · next hmark => exact .plain (by simp [Punctuator.opensComment, hmark])
  · split
    · next hmark =>
      obtain ⟨hmark, hline⟩ := Bool.and_eq_true_iff.1 hmark
      exact .htmlClosing hmark hline
    · next hmark => exact .plain (by simpa [Punctuator.opensComment] using hmark)
  · split
    · next hslash =>
      split
      · next hmark => exact .magicComment hslash (by simpa using hmark)
      · exact .lineComment hslash
    · next hslash =>
      split
      · next hstar =>
        split
        · next hclosed => exact .blockComment hstar hclosed
        · next hopen => exact .openComment hstar (by simpa using hopen)
      · next hstar => exact .plain (by simp [Punctuator.opensComment, hslash, hstar])
  · split
    · next hdigit => exact .fractionNumeral hdigit
    · split
      · next hpoints =>
        obtain ⟨hpoint, hpoint'⟩ := Bool.and_eq_true_iff.1 hpoints
        exact .ellipsis hpoint (beq_iff_eq.1 hpoint')
      · exact .plain rfl
  · split
    · next hpoint =>
      split
      · exact .givenBack hpoint rfl
      · next hdigit => exact .questionPeriod hpoint (by simpa using hdigit)
    · exact .plain rfl
  · next hlt hdec hdiv _ _ =>
    -- no other punctuator opens a comment
    refine .plain ?_
    cases p with
    | lt => exact absurd rfl hlt
    | dec => exact absurd rfl hdec
    | div => exact absurd rfl hdiv
    | _ => rfl

/-- What the rule finds that the character under the head chooses. -/
inductive Step.Chosen (settings : Settings) (lineBreak : Bool) (f : Findings) (r : Reader σ) :
    Step σ → Prop where
  /-- Nothing is left. -/
  | endOfInput (h : r.char? = none) :
      Chosen settings lineBreak f r (.lexeme lineBreak f (.ofKind .endOfInput r))
  /-- White space. -/
  | blank {c : Char} (h : r.char? = some c) (hc : isBlank c = true) :
      Chosen settings lineBreak f r
        (.gap (Gap.whiteSpace lineBreak r).1 f (Gap.whiteSpace lineBreak r).2)
  /-- A word. -/
  | word {c : Char} (h : r.char? = some c) (hc : isIdentifierStart c = true) :
      Chosen settings lineBreak f r (.lexeme lineBreak f (word "" c r))
  /-- A number that begins with a digit, which is noted if strict mode code may not hold it. -/
  | numeral {c : Char} (h : r.char? = some c) (hc : isDecimalDigit c = true) :
      Chosen settings lineBreak f r
        (.lexeme lineBreak
          (f.noteLegacyOctal (numeral settings c r).text.form?
            ⟨r.position, (numeral settings c r).reader.position⟩)
          (numeral settings c r))
  /-- A string. -/
  | stringLiteral {c : Char} (h : r.char? = some c) (hc : c = '"' ∨ c = '\'') :
      Chosen settings lineBreak f r (.lexeme lineBreak f (stringLiteral c r))
  /-- The first piece of a template. -/
  | templatePiece (h : r.char? = some '\x60') :
      Chosen settings lineBreak f r (.lexeme lineBreak f (templatePiece r.position r.advance))
  /-- A private name. -/
  | privateName (h : r.char? = some '#') :
      Chosen settings lineBreak f r (.lexeme lineBreak f (privateName r))
  /-- What the rule for punctuators finds at the longest one. -/
  | operator {c : Char} {p : Punctuator} (h : r.char? = some c)
      (hp : Punctuator.ofChar c = some p) :
      Chosen settings lineBreak f r
        (operator settings lineBreak f r.position (p.munch r.advance).1 (p.munch r.advance).2)
  /-- A character that begins no token. -/
  | illegal {c : Char} (h : r.char? = some c) (hp : Punctuator.ofChar c = none) :
      Chosen settings lineBreak f r
        (.lexeme lineBreak f (.illegal ⟨r.charSpan, .invalidCharacter⟩ {} r.advance))

/-- **All that a step can do.** -/
theorem chosen_step (settings : Settings) (lineBreak : Bool) (f : Findings) (r : Reader σ) :
    Step.Chosen settings lineBreak f r (step settings lineBreak f r) := by
  unfold step
  split
  · next h => exact .endOfInput h
  · next c h =>
    split
    · next hc => exact .blank h hc
    · split
      · next hc => exact .word h hc
      · split
        · next hc => exact .numeral h hc
        · split
          · next hc => exact .stringLiteral h (by simpa using hc)
          · split
            · next hc =>
              rw [beq_iff_eq.1 hc] at h
              exact .templatePiece h
            · split
              · next hc =>
                rw [beq_iff_eq.1 hc] at h
                exact .privateName h
              · split
                · next hp => exact .operator h hp
                · next hp => exact .illegal h hp

/-! ### Lexemes and gaps -/

/-- The lexemes that the rules find where the reader is. -/
inductive Lexeme.FoundAt (settings : Settings) (r : Reader σ) : Lexeme σ → Prop where
  /-- With nothing left, the end of input. -/
  | endOfInput (h : r.char? = none) : FoundAt settings r (ofKind .endOfInput r)
  /-- At a character that starts identifiers, a word. -/
  | word {c : Char} (h : r.char? = some c) (hc : isIdentifierStart c = true) :
      FoundAt settings r (word "" c r)
  /-- At a digit, a numeral. -/
  | numeral {c : Char} (h : r.char? = some c) (hc : isDecimalDigit c = true) :
      FoundAt settings r (numeral settings c r)
  /-- At a quote, a string. -/
  | stringLiteral {c : Char} (h : r.char? = some c) (hc : c = '"' ∨ c = '\'') :
      FoundAt settings r (stringLiteral c r)
  /-- At a backtick, the first piece of a template. -/
  | templatePiece (h : r.char? = some '\x60') :
      FoundAt settings r (templatePiece r.position r.advance)
  /-- At a number sign, a private name. -/
  | privateName (h : r.char? = some '#') : FoundAt settings r (privateName r)
  /-- After a point, where a digit comes next, a numeral. -/
  | fractionNumeral {r' : Reader σ} (h : r'.isAtAny isDecimalDigit = true) :
      FoundAt settings r (fractionNumeral settings r.position r')
  /-- A punctuator. -/
  | punctuator (p : Punctuator) (r' : Reader σ) : FoundAt settings r (ofKind (.punctuator p) r')
  /-- Text that is no token, and of which nothing is kept. -/
  | illegal (d : Diagnostic) (r' : Reader σ) : FoundAt settings r (illegal d {} r')

/-- What is found is a piece of a gap, or one of the lexemes. -/
def Step.FoundAt (settings : Settings) (r : Reader σ) : Step σ → Prop
  | gap _ _ _ => True
  | lexeme _ _ l => l.FoundAt settings r

theorem foundAt_htmlComment (settings : Settings) (lineBreak : Bool) (findings : Findings)
    (start : Nat) (r r' : Reader σ) :
    (htmlComment settings lineBreak findings start r').FoundAt settings r := by
  unfold htmlComment
  split
  · exact .illegal _ _
  · trivial

/-- What a punctuator turns out to be. -/
theorem foundAt_operator (settings : Settings) (lineBreak : Bool) (findings : Findings)
    (p : Punctuator) (r r' : Reader σ) :
    (operator settings lineBreak findings r.position p r').FoundAt settings r := by
  have h := ofPunctuator_operator settings lineBreak findings r.position p r'
  generalize operator settings lineBreak findings r.position p r' = s at h ⊢
  cases h with
  | htmlOpening => exact foundAt_htmlComment _ _ _ _ _ _
  | htmlClosing => exact foundAt_htmlComment _ _ _ _ _ _
  | magicComment => trivial
  | lineComment => trivial
  | blockComment => trivial
  | openComment => exact .illegal _ _
  | fractionNumeral h => exact .fractionNumeral h
  | ellipsis => exact .punctuator _ _
  | questionPeriod => exact .punctuator _ _
  | givenBack => exact .punctuator _ _
  | plain => exact .punctuator _ _

theorem foundAt_step (settings : Settings) (lineBreak : Bool) (findings : Findings)
    (r : Reader σ) : (step settings lineBreak findings r).FoundAt settings r := by
  have h := chosen_step settings lineBreak findings r
  generalize step settings lineBreak findings r = s at h ⊢
  cases h with
  | endOfInput h => exact .endOfInput h
  | blank => trivial
  | word h hc => exact .word h hc
  | numeral h hc => exact .numeral h hc
  | stringLiteral h hc => exact .stringLiteral h hc
  | templatePiece h => exact .templatePiece h
  | privateName h => exact .privateName h
  | operator => exact foundAt_operator _ _ _ _ _ _
  | illegal => exact .illegal _ _

/-- **Every lexeme is what one of the rules finds.** -/
theorem foundAt_of_step {settings : Settings} {lineBreak lineBreak' : Bool}
    {findings findings' : Findings} {r : Reader σ} {l : Lexeme σ}
    (h : step settings lineBreak findings r = .lexeme lineBreak' findings' l) :
    l.FoundAt settings r := by
  have hs := foundAt_step settings lineBreak findings r
  rwa [h] at hs

/-- **A piece of a gap begins with a blank or with a punctuator.** -/
theorem gap_of_step {settings : Settings} {lineBreak lineBreak' : Bool}
    {findings findings' : Findings} {r r' : Reader σ}
    (h : step settings lineBreak findings r = .gap lineBreak' findings' r') :
    ∃ c, r.char? = some c ∧
      (isBlank c = true ∧ Gap.whiteSpace lineBreak r = (lineBreak', r') ∨
        ∃ p, Punctuator.ofChar c = some p ∧
          operator settings lineBreak findings r.position (p.munch r.advance).1
            (p.munch r.advance).2 = .gap lineBreak' findings' r') := by
  have hs := chosen_step settings lineBreak findings r
  generalize step settings lineBreak findings r = s at h hs
  cases hs with
  | blank hc hb =>
    cases h
    exact ⟨_, hc, .inl ⟨hb, rfl⟩⟩
  | operator hc hp => exact ⟨_, hc, .inr ⟨_, hp, h⟩⟩
  | _ => cases h

/-- At a digit a numeral is read, and noted if strict mode code may not hold it. -/
theorem step_eq_numeral {r : Reader σ} {c : Char} (hr : r.char? = some c)
    (hc : isDecimalDigit c = true) (settings : Settings) (lineBreak : Bool) (f : Findings) :
    step settings lineBreak f r = .lexeme lineBreak
      (f.noteLegacyOctal (numeral settings c r).text.form?
        ⟨r.position, (numeral settings c r).reader.position⟩) (numeral settings c r) := by
  have hb := isBlank_of_isDecimalDigit hc
  have hi := isIdentifierStart_of_isDecimalDigit hc
  rw [step, hr]
  dsimp only
  rw [if_neg (by rw [hb]; decide), if_neg (by rw [hi]; decide), if_pos hc]

/-- A character of a punctuator chooses no other rule. -/
theorem Punctuator.not_other_of_ofChar {c : Char} {p : Punctuator} (h : ofChar c = some p) :
    isBlank c = false ∧ isIdentifierStart c = false ∧ isDecimalDigit c = false ∧
      (c == '"' || c == '\'') = false ∧ (c == '\x60') = false ∧ (c == '#') = false := by
  unfold ofChar at h
  split at h <;> first | decide | cases h

/-- At the first character of a punctuator the rule for punctuators is chosen. -/
theorem step_eq_operator {r : Reader σ} {c : Char} {p : Punctuator} (hr : r.char? = some c)
    (h : Punctuator.ofChar c = some p) (settings : Settings) (lineBreak : Bool) (f : Findings) :
    step settings lineBreak f r = operator settings lineBreak f r.position
      (p.munch r.advance).1 (p.munch r.advance).2 := by
  obtain ⟨hblank, hstart, hdigit, hquote, hbacktick, hsign⟩ := Punctuator.not_other_of_ofChar h
  rw [step, hr]
  dsimp only
  rw [hblank, hstart, hdigit, hquote, hbacktick, hsign, h]
  rfl

/-! ### Comments -/

/-- A comment is passed, or it is an error. -/
def Step.IsGapOrError : Step σ → Prop
  | gap _ _ _ => True
  | lexeme _ _ l => l.error?.isSome = true

theorem isGapOrError_htmlComment (settings : Settings) (lineBreak : Bool) (f : Findings)
    (start : Nat) (r : Reader σ) : (htmlComment settings lineBreak f start r).IsGapOrError := by
  unfold htmlComment
  split
  · rfl
  · trivial

/-- **Where a comment begins, there is no token**, other than an error. -/
theorem isGapOrError_of_opensComment {p : Punctuator} {lineBreak : Bool} {r : Reader σ}
    (h : p.opensComment lineBreak r = true) (settings : Settings) (f : Findings) (start : Nat) :
    (operator settings lineBreak f start p r).IsGapOrError := by
  have hs := ofPunctuator_operator settings lineBreak f start p r
  generalize operator settings lineBreak f start p r = s at hs ⊢
  cases hs with
  | htmlOpening => exact isGapOrError_htmlComment _ _ _ _ _
  | htmlClosing => exact isGapOrError_htmlComment _ _ _ _ _
  | magicComment => trivial
  | lineComment => trivial
  | blockComment => trivial
  | openComment => rfl
  | fractionNumeral => cases h
  | ellipsis => cases h
  | questionPeriod => cases h
  | givenBack _ hcomment =>
    rw [hcomment] at h
    cases h
  | plain hcomment =>
    rw [hcomment] at h
    cases h

/-! ### What is noted -/

/-- What has been noted after a rule. -/
def Step.findings {σ : Type} : Step σ → Findings
  | gap _ f _ => f
  | lexeme _ f _ => f

/-- What may have been noted after a punctuator was read. -/
inductive Punctuator.Notes (f : Findings) : Punctuator → Findings → Prop where
  /-- Nothing new. -/
  | nothing (p : Punctuator) : Notes f p f
  /-- The opening of an HTML-like comment. -/
  | htmlComment : Notes f .lt { f with htmlComment := true }
  /-- The value of a magic comment. -/
  | magic (name : Gap.MagicName) (value? : Option String) : Notes f .div (name.set value? f)

theorem Gap.findings_magicComment (f : Findings) (r : Reader σ) :
    (magicComment f r).1 = f ∨
      ∃ name value?, (magicComment f r).1 = MagicName.set name value? f := by
  unfold magicComment magicAssignment
  dsimp only
  split
  · split
    · exact .inl rfl
    · next name _ =>
      split
      · exact .inr ⟨name, _, rfl⟩
      · exact .inl rfl
  · exact .inl rfl

theorem findings_htmlComment (settings : Settings) (lineBreak : Bool) (f : Findings)
    (start : Nat) (r : Reader σ) : (htmlComment settings lineBreak f start r).findings = f := by
  unfold htmlComment
  split <;> rfl

/-- **Nothing else is noted at a punctuator.** -/
theorem notes_operator (settings : Settings) (lineBreak : Bool) (f : Findings) (start : Nat)
    (p : Punctuator) (r : Reader σ) :
    p.Notes f (operator settings lineBreak f start p r).findings := by
  have h := ofPunctuator_operator settings lineBreak f start p r
  generalize operator settings lineBreak f start p r = s at h ⊢
  cases h with
  | htmlOpening =>
    rw [findings_htmlComment]
    exact .htmlComment
  | htmlClosing =>
    rw [findings_htmlComment]
    exact .nothing _
  | magicComment =>
    rw [Step.findings]
    rcases Gap.findings_magicComment f r.advance.advance with h | ⟨name, value?, h⟩
    · rw [h]
      exact .nothing _
    · rw [h]
      exact .magic name value?
  | _ => exact .nothing _

/-- No literal is noted at a punctuator. -/
theorem octal?_operator (settings : Settings) (lineBreak : Bool) (f : Findings) (start : Nat)
    (p : Punctuator) (r : Reader σ) :
    (operator settings lineBreak f start p r).findings.octal? = f.octal? := by
  have h := notes_operator settings lineBreak f start p r
  generalize (operator settings lineBreak f start p r).findings = f' at h ⊢
  cases h with
  | nothing => rfl
  | htmlComment => rfl
  | magic name value? => cases name <;> rfl

/-- Only one punctuator makes the scanner look for the opening of an HTML-like comment. -/
theorem htmlComment_operator_of_ne {p : Punctuator} (hp : p ≠ .lt) (settings : Settings)
    (lineBreak : Bool) (f : Findings) (start : Nat) (r : Reader σ) :
    (operator settings lineBreak f start p r).findings.htmlComment = f.htmlComment := by
  have h := notes_operator settings lineBreak f start p r
  generalize (operator settings lineBreak f start p r).findings = f' at h ⊢
  cases h with
  | nothing => rfl
  | htmlComment => exact absurd rfl hp
  | magic name value? => cases name <;> rfl

end EcmaLex
