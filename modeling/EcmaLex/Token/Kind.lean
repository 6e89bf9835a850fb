import EcmaLex.Token.Keyword
import EcmaLex.Token.Punctuator

/-!
# Token kinds

What a token is, without its text.

## Main definitions

* `TokenKind` — the kinds.
* `TokenKind.lexeme` — the spelling of the kinds that have only one.
* `TokenKind.name`, `TokenKind.displayName` — a kind in dumps and for readers.
* `TokenKind.ofWord` — the kind of an identifier with a given text.
-/

namespace EcmaLex

/-- What a token is. -/
inductive TokenKind where
  | punctuator (p : Punctuator)
  /-- A numeric literal that is neither a small integer nor a BigInt. -/
  | number
  /-- A decimal integer literal of at most 31 bits. -/
  | smallInt
  /-- An integer literal with the suffix `n`. -/
  | bigInt
  | string
  /-- A piece of a template that ends where a substitution begins. -/
  | templateSpan
  /-- A piece of a template that ends with the template. -/
  | templateTail
  /-- A name after a number sign. -/
  | privateName
  | identifier
  | keyword (k : Keyword)
  /-- A reserved word spelled with an escape. -/
  | escapedKeyword
  /-- A word reserved in strict mode code, spelled with an escape. -/
  | escapedStrictReservedWord
  /-- Text between tokens; no token has this kind. -/
  | whitespace
  /-- Text that is no token. -/
  | illegal
  | endOfInput
  /-- The kind of a place for a token that holds none yet. -/
  | uninitialized
  deriving DecidableEq, Repr

namespace TokenKind

instance : Inhabited TokenKind := ⟨uninitialized⟩

/-- All kinds, each once. -/
def all : List TokenKind :=
  Punctuator.all.map punctuator ++
  [number, smallInt, bigInt, string, templateSpan, templateTail, privateName, identifier] ++
  Keyword.all.map keyword ++
  [escapedKeyword, escapedStrictReservedWord, whitespace, illegal, endOfInput, uninitialized]

/-- The spelling of the kinds that have only one: punctuators and keywords. -/
def lexeme : TokenKind → Option String
  | punctuator p => some p.lexeme
  | keyword k => some k.lexeme
  | _ => none

/-- The name of a kind in token dumps. -/
def name : TokenKind → String
  | punctuator p => p.name
  | number => "Number"
  | smallInt => "Smi"
  | bigInt => "BigInt"
  | string => "String"
  | templateSpan => "TemplateSpan"
  | templateTail => "TemplateTail"
  | privateName => "PrivateName"
  | identifier => "Identifier"
  | keyword k => k.name
  | escapedKeyword => "EscapedKeyword"
  | escapedStrictReservedWord => "EscapedStrictReservedWord"
  | whitespace => "Whitespace"
  | illegal => "Illegal"
  | endOfInput => "EndOfInput"
  | uninitialized => "Uninitialized"

/-- A description of a kind for readers: its spelling where it has only one. -/
def displayName : TokenKind → String
  | punctuator p => p.lexeme
  | number => "number"
  | smallInt => "small integer"
  | bigInt => "bigint"
  | string => "string"
  | templateSpan => "template span"
  | templateTail => "template tail"
  | privateName => "private name"
  | identifier => "identifier"
  | keyword k => k.lexeme
  | escapedKeyword => "escaped keyword"
  | escapedStrictReservedWord => "escaped reserved word"
  | whitespace => "whitespace"
  | illegal => "illegal token"
  | endOfInput => "end of input"
  | uninitialized => "uninitialized"

/-- Whether the kind is that of a contextual keyword. -/
def isContextualKeyword : TokenKind → Bool
  | keyword k => k.isContextual
  | _ => false

/-- Whether the kind is that of a word reserved in strict mode code only. -/
def isStrictReservedWord : TokenKind → Bool
  | keyword k => k.isStrictReserved
  | _ => false

/-- The kind of an identifier with the given text: that of the keyword it spells, or
plain `identifier`. -/
def ofWord (text : String) : TokenKind := (Keyword.ofText text).elim identifier keyword

@[simp] theorem lexeme_keyword (k : Keyword) : (keyword k).lexeme = some k.lexeme := rfl

theorem mem_all (k : TokenKind) : k ∈ all := by
  cases k with
  | punctuator p => simp [all, Punctuator.mem_all]
  | keyword k => simp [all, Keyword.mem_all]
  | _ => simp [all]

end TokenKind

end EcmaLex
