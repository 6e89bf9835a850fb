import EcmaLex.Source.Reader
import EcmaLex.Token.Basic

/-!
# Lexemes

A rule of the grammar reads one lexeme: it says which kind of token the text is,
or what is wrong with it, keeps what it has read of the text in either case, and
leaves the reader on the first character after the lexeme.

## Main definitions

* `Lexeme` — what a rule has read.
* `Lexeme.toToken` — the token of a lexeme, once its place is known.
-/

namespace EcmaLex

/-- What a rule of the grammar has read. -/
structure Lexeme (σ : Type) where
  /-- The kind of token that the text is, or what is wrong with it. -/
  verdict : Except Diagnostic TokenKind
  /-- The text, as far as it was read. -/
  text : TokenText
  /-- The reader, on the first character after the lexeme. -/
  reader : Reader σ

namespace Lexeme

variable {σ : Type}

/-- A lexeme whose kind says everything. -/
def ofKind (kind : TokenKind) (reader : Reader σ) : Lexeme σ := ⟨.ok kind, {}, reader⟩

/-- A piece of text that is no token. -/
def illegal (d : Diagnostic) (text : TokenText) (reader : Reader σ) : Lexeme σ :=
  ⟨.error d, text, reader⟩

/-- The kind of the token that the lexeme gives. -/
def kind (l : Lexeme σ) : TokenKind :=
  match l.verdict with
  | .ok k => k
  | .error _ => .illegal

/-- What is wrong with the lexeme, if anything. -/
def error? (l : Lexeme σ) : Option Diagnostic :=
  match l.verdict with
  | .ok _ => none
  | .error d => some d

/-- The token of a lexeme that starts at `start` and ends where the reader is. -/
def toToken [TextSource σ] (l : Lexeme σ) (start : Nat) (afterLineTerminator : Bool) : Token where
  toTokenText := l.text
  kind := l.kind
  span := ⟨start, l.reader.position⟩
  afterLineTerminator := afterLineTerminator
  error? := l.error?

end Lexeme

end EcmaLex
