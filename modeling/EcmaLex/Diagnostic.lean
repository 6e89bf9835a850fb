import EcmaLex.Span

/-!
# Causes and diagnostics

Every illegal token carries a diagnostic: what is wrong (`Cause`) and where.
Two causes are not errors of the token they are found on.  They matter only if
the code turns out to be strict, which the scanner cannot know, so they are kept
aside as deferred diagnostics.

## Main definitions

* `Cause` — what is wrong.
* `Cause.message` — its wording.
* `Cause.isFatal`, `Cause.isStrictOnly` — causes that end a listing, and deferred ones.
* `Diagnostic` — a cause at a span.
-/

namespace EcmaLex

/-- What is wrong with a piece of text. -/
inductive Cause where
  /-- A legacy octal literal such as `017`. -/
  | strictOctalLiteral
  /-- A decimal literal with a leading zero such as `089`. -/
  | strictDecimalWithLeadingZero
  /-- A separator after a leading zero, as in `0_1`. -/
  | zeroDigitSeparator
  /-- Two separators in a row, as in `1__0`. -/
  | continuousSeparator
  /-- A separator after the last digit of a run, as in `1_`. -/
  | trailingSeparator
  /-- A separator before the first digit of a run, as in `0x_1` or `1._5`. -/
  | leadingSeparator
  /-- A run of digits that must not be empty is, as in `0x` or `1e+`. -/
  | missingDigits
  /-- A literal runs into an identifier or a digit, as in `3in` or `0b12`. -/
  | identifierAfterNumber
  /-- A BigInt literal longer than the settings allow. -/
  | bigIntTooBig
  /-- A string literal without its closing quote. -/
  | unterminatedString
  /-- A template without its closing delimiter. -/
  | unterminatedTemplate
  /-- A block comment without its closing delimiter. -/
  | unterminatedComment
  /-- An HTML-like comment in module code. -/
  | htmlCommentInModule
  /-- A number sign that no identifier follows. -/
  | invalidPrivateName
  /-- A backslash in an identifier that does not spell a character allowed there. -/
  | invalidUnicodeEscape
  /-- A character that starts no token. -/
  | invalidCharacter
  deriving DecidableEq, Repr

namespace Cause

/-- The wording of a cause. -/
def message : Cause → String
  | strictOctalLiteral => "octal literals are not allowed in strict mode"
  | strictDecimalWithLeadingZero =>
      "decimals with leading zeros are not allowed in strict mode"
  | zeroDigitSeparator => "numeric separator can not be used after leading 0"
  | continuousSeparator => "only one underscore is allowed as numeric separator"
  | trailingSeparator => "numeric separators are not allowed at the end of numeric literals"
  | leadingSeparator =>
      "numeric separators are not allowed at the start of a digit sequence"
  | missingDigits => "expected digits in numeric literal"
  | identifierAfterNumber => "identifier starts immediately after numeric literal"
  | bigIntTooBig => "bigint literal is too big"
  | unterminatedString => "unterminated string literal"
  | unterminatedTemplate => "unterminated template literal"
  | unterminatedComment => "unterminated multi-line comment"
  | htmlCommentInModule => "HTML comments are not allowed in modules"
  | invalidPrivateName => "invalid private name"
  | invalidUnicodeEscape => "invalid Unicode escape sequence"
  | invalidCharacter => "invalid or unexpected token"

/-- The causes after which a text is not listed any further. -/
def isFatal : Cause → Bool
  | htmlCommentInModule | invalidPrivateName => true
  | _ => false

/-- The causes that only matter in strict mode code. -/
def isStrictOnly : Cause → Bool
  | strictOctalLiteral | strictDecimalWithLeadingZero => true
  | _ => false

end Cause

/-- A cause and the span it is reported at. -/
structure Diagnostic where
  /-- Where. -/
  span : Span
  /-- What. -/
  cause : Cause
  deriving DecidableEq, Repr

namespace Diagnostic

/-- Whether the cause ends a listing. -/
def isFatal (d : Diagnostic) : Bool := d.cause.isFatal

/-- The wording of the cause, followed by its place. -/
def render (d : Diagnostic) : String := d.cause.message ++ " at " ++ d.span.render

end Diagnostic

end EcmaLex
