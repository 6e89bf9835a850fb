import EcmaLex.Token.Basic

/-!
# Findings

What the scanner notes about a text beside its tokens.

## Main definitions

* `Findings` — the notes.
* `Findings.noteLegacyOctal` — noting a literal that strict mode code may not hold.
-/

namespace EcmaLex

/-- What is noted beside the tokens. -/
structure Findings where
  /-- Whether the opening of an HTML-like comment was found. -/
  htmlComment : Bool := false
  /-- The latest literal that strict mode code may not hold, unless it was asked for. -/
  octal? : Option Diagnostic := none
  /-- The value of the latest `sourceURL` comment. -/
  sourceUrl? : Option String := none
  /-- The value of the latest `sourceMappingURL` comment. -/
  sourceMappingUrl? : Option String := none
  deriving DecidableEq, Repr

/-- What strict mode code would say to a literal of the form. -/
def NumberForm.strictCause : NumberForm → Option Cause
  | implicitOctal => some .strictOctalLiteral
  | decimalWithLeadingZero => some .strictDecimalWithLeadingZero
  | _ => none

/-- Notes a numeric literal at a span, if its form is one that strict mode code may not
hold.  A literal with an error has no form and is not noted. -/
def Findings.noteLegacyOctal (f : Findings) (form? : Option NumberForm) (span : Span) :
    Findings :=
  match form?.bind NumberForm.strictCause with
  | some cause => { f with octal? := some ⟨span, cause⟩ }
  | none => f

end EcmaLex
