import EcmaLex.Diagnostic
import EcmaLex.Token.Kind
import EcmaLex.Token.NumberForm

/-!
# Tokens

A token is its kind, its place, and what the scanner found out about its text.
The *cooked* text is what the token means to a parser: the name of an
identifier, the inside of a string, the digits of a number without separators,
a piece of a template with its line ends made uniform.  The *raw* text of
numbers and templates is as it was written, line ends apart.

## Main definitions

* `TokenText` — the part of a token that comes from its text.
* `Token` — a token in its place.
* `Token.absent` — the token of a place that has never held one.
-/

namespace EcmaLex

/-- What the scanner finds out about the text of one token. -/
structure TokenText where
  /-- The text as a parser takes it. -/
  cooked : String := ""
  /-- The text as it was written, for numbers and templates. -/
  raw : String := ""
  /-- The value of a small integer. -/
  smallInt? : Option Nat := none
  /-- The form of a numeric literal. -/
  form? : Option NumberForm := none
  /-- Whether an identifier is spelled with escapes. -/
  escaped : Bool := false
  deriving DecidableEq, Repr

/-- A token in its place. -/
structure Token extends TokenText where
  /-- What the token is. -/
  kind : TokenKind
  /-- Where it is. -/
  span : Span
  /-- Whether a line terminator stands between the token before and this one. -/
  afterLineTerminator : Bool
  /-- What is wrong with an illegal token. -/
  error? : Option Diagnostic
  deriving DecidableEq, Repr

/-- Whether every character of the text is below 256, so that one byte is enough for
each. -/
def isOneByte (text : String) : Bool := text.toList.all (·.toNat ≤ 0xFF)

namespace Token

/-- The token of a place that has never held one. -/
def absent : Token where
  kind := .uninitialized
  span := .unlocated
  afterLineTerminator := false
  error? := none

instance : Inhabited Token := ⟨absent⟩

/-- Whether the token ends a listing. -/
def isFatal (t : Token) : Bool := t.error?.any Diagnostic.isFatal

/-- The value of a numeric literal. -/
def numericValue (t : Token) : Option Float :=
  match t.smallInt? with
  | some n => some (.ofNat n)
  | none => t.form?.bind (·.value t.cooked)

end Token

end EcmaLex
