import EcmaLex.Proofs.Lexeme.Sound
import EcmaLex.Proofs.Scanner.Coverage

/-!
# Punctuators stand in the text

A token that is a punctuator is read by the rule for punctuators, whatever this rule looked
at further on: the text has the spelling of the punctuator there, and the reader is right
after it.  A mark that is given back is still under the head.

## Main results

* `operator_of_step` — no other rule gives punctuators.
* `spelled_of_step` — **a punctuator is spelled where it is read**.
-/

namespace EcmaLex

open Reader

namespace TokenKind

/-- Whether the kind is that of a punctuator. -/
def isPunctuator : TokenKind → Bool
  | punctuator _ => true
  | _ => false

theorem isPunctuator_of_isNumeric {k : TokenKind} (h : k.isNumeric = true) :
    k.isPunctuator = false := by
  cases k <;> first | rfl | cases h

end TokenKind

/-! ### The other rules -/

section Kinds

variable {σ : Type}

theorem Word.isPunctuator_kind (canBeKeyword escaped : Bool) (text : String) :
    (kind canBeKeyword escaped text).isPunctuator = false := by
  unfold kind
  repeat' split
  all_goals rfl

theorem Numeral.isPunctuator_lexeme {x : Reading σ Verdict} (h : Yields Verdict.Sound x)
    (n : Numeral σ) : (lexeme x n).kind.isPunctuator = false := by
  unfold lexeme
  split
  · next v n' hr => exact TokenKind.isPunctuator_of_isNumeric (h n n' v hr).1
  · rfl

variable [TextSource σ]

theorem Word.isPunctuator_finish (w : Progress σ) : (finish w).kind.isPunctuator = false := by
  unfold finish
  dsimp only
  split
  · rfl
  · exact isPunctuator_kind _ _ _

theorem isPunctuator_word (text : String) (first : Char) (r : Reader σ) :
    (word text first r).kind.isPunctuator = false := by
  unfold word
  split
  · split
    · exact Word.isPunctuator_finish _
    · rfl
  · split
    · dsimp only
      split
      · exact Word.isPunctuator_finish _
      · exact Word.isPunctuator_kind _ _ _
    · exact Word.isPunctuator_finish _

theorem isPunctuator_privateName (r : Reader σ) : (privateName r).kind.isPunctuator = false := by
  unfold privateName
  split
  · next first _ =>
    unfold Lexeme.kind
    dsimp only
    cases (word "#" first r.advance).verdict <;> rfl
  · rfl

theorem isPunctuator_stringLiteral (quote : Char) (r : Reader σ) :
    (stringLiteral quote r).kind.isPunctuator = false := by
  unfold stringLiteral
  dsimp only
  split <;> rfl

theorem isPunctuator_templatePiece (opening : Nat) (r : Reader σ) :
    (templatePiece opening r).kind.isPunctuator = false := by
  unfold templatePiece
  dsimp only
  split <;> rfl

end Kinds

/-- Punctuators are read by the rule for punctuators. -/
theorem operator_of_step {σ : Type} [SearchableSource σ] {settings : Settings}
    {lineBreak lineBreak' : Bool} {findings findings' : Findings} {r : Reader σ} {l : Lexeme σ}
    (h : step settings lineBreak findings r = .lexeme lineBreak' findings' l)
    (hl : l.kind.isPunctuator = true) :
    ∃ c p, r.char? = some c ∧ Punctuator.ofChar c = some p ∧
      operator settings lineBreak findings r.position (p.munch r.advance).1
        (p.munch r.advance).2 = .lexeme lineBreak' findings' l := by
  -- a lexeme of another rule is no punctuator
  have hother : ∀ {l' : Lexeme σ} {f : Findings}, l'.kind.isPunctuator = false →
      ¬ Step.lexeme lineBreak f l' = .lexeme lineBreak' findings' l := by
    rintro l' f hk he
    cases he
    rw [hk] at hl
    cases hl
  have hs := chosen_step settings lineBreak findings r
  generalize step settings lineBreak findings r = s at h hs
  cases hs with
  | endOfInput => exact absurd h (hother rfl)
  | blank => cases h
  | word => exact absurd h (hother (isPunctuator_word _ _ _))
  | numeral =>
    exact absurd h (hother (Numeral.isPunctuator_lexeme (Numeral.yields_afterFirstDigit _ _ _) _))
  | stringLiteral => exact absurd h (hother (isPunctuator_stringLiteral _ _))
  | templatePiece => exact absurd h (hother (isPunctuator_templatePiece _ _))
  | privateName => exact absurd h (hother (isPunctuator_privateName _))
  | operator hc hp => exact ⟨_, _, hc, hp, h⟩
  | illegal => exact absurd h (hother rfl)

/-! ### Spelling -/

variable {σ : Type} [ExactSource σ] {settings : Settings} {lineBreak lineBreak' : Bool}
  {findings findings' : Findings} {before after : List Char} {l : Lexeme σ} {q : Punctuator}

/-- After the mark of an HTML-like comment there is no punctuator. -/
theorem not_isPunctuator_of_htmlComment {start : Nat} {r : Reader σ}
    (h : htmlComment settings lineBreak findings start r = .lexeme lineBreak' findings' l) :
    l.kind.isPunctuator = false := by
  unfold htmlComment at h
  split at h
  · cases h
    rfl
  · cases h

/-- What a punctuator turns out to be is spelled there as well. -/
theorem spelled_of_operator {start : Nat} {p : Punctuator}
    (h : operator settings lineBreak findings start p
      (between (before ++ p.lexeme.toList) after : Reader σ) = .lexeme lineBreak' findings' l)
    (hl : l.kind = .punctuator q) :
    ∃ rest, p.lexeme.toList ++ after = q.lexeme.toList ++ rest ∧
      l.reader = between (before ++ q.lexeme.toList) rest := by
  have hk : l.kind.isPunctuator = true := by rw [hl]; rfl
  -- most often the punctuator is what it seems to be
  have hplain : Step.lexeme lineBreak findings
      (.ofKind (.punctuator p) (between (before ++ p.lexeme.toList) after)) =
        .lexeme lineBreak' findings' l →
      ∃ rest, p.lexeme.toList ++ after = q.lexeme.toList ++ rest ∧
        l.reader = between (before ++ q.lexeme.toList) rest := by
    intro he
    cases he
    cases hl
    exact ⟨after, rfl, rfl⟩
  have hs := ofPunctuator_operator settings lineBreak findings start p
    (between (before ++ p.lexeme.toList) after : Reader σ)
  generalize operator settings lineBreak findings start p
    (between (before ++ p.lexeme.toList) after : Reader σ) = s at h hs
  cases hs with
  | htmlOpening =>
    rw [not_isPunctuator_of_htmlComment h] at hk
    cases hk
  | htmlClosing =>
    rw [not_isPunctuator_of_htmlComment h] at hk
    cases hk
  | magicComment => cases h
  | lineComment => cases h
  | blockComment => cases h
  | openComment =>
    cases h
    cases hl
  | fractionNumeral =>
    cases h
    rw [fractionNumeral,
      Numeral.isPunctuator_lexeme (Numeral.yields_afterPoint settings start)] at hk
    cases hk
  | ellipsis hpoint hpoint' =>
    -- three points make an ellipsis
    obtain ⟨after, rfl⟩ := List.head?_eq_some_iff.1 (beq_iff_eq.1 hpoint)
    rw [peek_between] at hpoint'
    obtain ⟨after, rfl⟩ := List.head?_eq_some_iff.1 hpoint'
    rw [advance_between_cons, advance_between_cons] at h
    cases h
    cases hl
    exact ⟨after, rfl, by simp [Lexeme.ofKind, Punctuator.lexeme]⟩
  | questionPeriod hpoint =>
    obtain ⟨after, rfl⟩ := List.head?_eq_some_iff.1 (beq_iff_eq.1 hpoint)
    rw [advance_between_cons] at h
    cases h
    cases hl
    exact ⟨after, rfl, by simp [Lexeme.ofKind, Punctuator.lexeme]⟩
  | givenBack hc =>
    rw [(within_between _ _).pushBack_advance hc] at h
    exact hplain h
  | plain => exact hplain h

/-- **A punctuator is spelled where it is read**, and the reader is right after it. -/
theorem spelled_of_step
    (h : step settings lineBreak findings (between before after : Reader σ) =
      .lexeme lineBreak' findings' l)
    (hl : l.kind = .punctuator q) :
    ∃ rest, after = q.lexeme.toList ++ rest ∧
      l.reader = between (before ++ q.lexeme.toList) rest := by
  obtain ⟨c, p, hc, hp, ho⟩ := operator_of_step h (by rw [hl]; rfl)
  obtain ⟨after, rfl⟩ := List.head?_eq_some_iff.1 hc
  rw [advance_between_cons] at ho
  -- the text was read as far as the longest punctuator, of which the first character is `c`
  obtain ⟨run, rest, rfl, hr, hs⟩ := p.munch_between (σ := σ) (before ++ [c]) after
  rw [Punctuator.lexeme_of_ofChar hp, String.toList_singleton] at hs
  rw [hr, List.append_assoc, ← hs] at ho
  obtain ⟨rest', hsplit, hreader⟩ := spelled_of_operator ho hl
  rw [hs] at hsplit
  exact ⟨rest', hsplit, hreader⟩

end EcmaLex
