import EcmaLex.Proofs.Scanner.Passing

/-!
# Where a scan leaves a block comment

A block comment is over right behind the first closing after its opening.  The opening lends the
closing nothing, so that a slash behind it closes no comment, and of a run of asterisks the last
one closes with the slash behind it.  Whether a line terminator was found before the comment makes
the search stop at other characters, and makes no difference to where it ends.

## Main results

* `exists_first_closing` — a text with a closing has a first one.
* `step_openComment` — a comment without a closing is an error up to the end of the text.
* `scanToken_comment` — **a block comment ends at the first closing**, or with the text.
-/

namespace EcmaLex

open Reader

/-- A text with a closing in it has a first one. -/
theorem exists_first_closing {text : List Char} (h : ['*', '/'] <:+: text) :
    ∃ inside rest, text = inside ++ '*' :: '/' :: rest ∧ ¬ ['*', '/'] <:+: inside ++ ['*'] := by
  cases hc : closeComment text with
  | none => exact absurd h (not_infix_of_closeComment_eq_none hc)
  | some p => exact ⟨p.1, p.2, eq_of_closeComment hc, not_infix_of_closeComment hc⟩

theorem closeComment_eq_none {text : List Char} (h : ¬ ['*', '/'] <:+: text) :
    closeComment text = none := by
  cases hc : closeComment text with
  | none => rfl
  | some p => exact absurd ⟨p.1, p.2, by simp [eq_of_closeComment hc]⟩ h

variable {σ : Type} [ExactSource σ]

/-- A comment without a closing is an error up to the end of the text. -/
theorem step_openComment (settings : Settings) (lineBreak : Bool) (f : Findings)
    {after : List Char} (h : ¬ ['*', '/'] <:+: after) (before : List Char) :
    step settings lineBreak f (between before ('/' :: '*' :: after) : Reader σ) =
      .lexeme (lineBreak || after.any isLineTerminator) f
        (illegalSpan (extent σ before) .unterminatedComment
          (between (before ++ '/' :: '*' :: after) [])) := by
  rw [step_of_ofChar (p := .div) rfl, Punctuator.munch_of_extend_eq_none rfl]
  unfold operator
  dsimp only
  rw [if_neg (by simp), if_pos (by simp), Gap.blockComment_between, closeComment_eq_none h]
  simp

/-- **A block comment ends at the first closing**, or with the text.

Where an opening stands, and whether or not a line terminator was found before it: if there is a
closing behind the opening, the step that reads the comment leaves the reader right behind the
first one, it has found a line terminator just if there was one before or there is one inside, and
the scan goes on there.  If there is none, the scan ends at the end of the text, with an error that
spans the text from the opening on. -/
theorem scanToken_comment (settings : Settings) (lineBreak : Bool) (f : Findings)
    (before after : List Char) :
    let opened : Reader σ := between before ('/' :: '*' :: after)
    (['*', '/'] <:+: after → ∃ inside rest, after = inside ++ '*' :: '/' :: rest ∧
      ¬ ['*', '/'] <:+: inside ++ ['*'] ∧
      let lineBreak' := lineBreak || inside.any isLineTerminator
      let closed : Reader σ := between (before ++ '/' :: '*' :: (inside ++ ['*', '/'])) rest
      step settings lineBreak f opened = .gap lineBreak' f closed ∧
        scanToken settings lineBreak f opened = scanToken settings lineBreak' f closed) ∧
    (¬ ['*', '/'] <:+: after →
      let text := before ++ '/' :: '*' :: after
      let span : Span := ⟨extent σ before, extent σ text⟩
      scanToken settings lineBreak f opened =
        { token :=
            { kind := .illegal
              span
              afterLineTerminator := lineBreak || after.any isLineTerminator
              error? := some ⟨span, .unterminatedComment⟩ }
          findings := f
          reader := between text [] }) := by
  intro opened
  refine ⟨fun h => ?_, fun h => ?_⟩
  · obtain ⟨inside, rest, rfl, hfirst⟩ := exists_first_closing h
    have hstep := step_blockComment (σ := σ) settings lineBreak f hfirst before rest
    exact ⟨inside, rest, rfl, hfirst, hstep, scanToken_of_step_eq_gap hstep⟩
  · have hstep := step_openComment (σ := σ) settings lineBreak f h before
    intro text span
    rw [scanToken_of_step_eq_lexeme hstep, position_between]
    simp only [Lexeme.toToken, illegalSpan, Lexeme.illegal, Lexeme.kind, Lexeme.error?,
      position_between]
    rfl

end EcmaLex
