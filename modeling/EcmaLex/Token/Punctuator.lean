/-!
# Punctuators

The tokens of fixed spelling that are no words.

## Main definitions

* `Punctuator` — the punctuators.
* `Punctuator.all` — all of them, each once.
* `Punctuator.lexeme` — the spelling of each.
* `Punctuator.name` — the name of each in token dumps.
-/

namespace EcmaLex

/-- A punctuator, named for its meaning as an operator. -/
inductive Punctuator where
  /-- The token `(`. -/
  | leftParen
  /-- The token `)`. -/
  | rightParen
  /-- The token `[`. -/
  | leftBracket
  /-- The token `]`. -/
  | rightBracket
  /-- The token `{`. -/
  | leftBrace
  /-- The token `}`. -/
  | rightBrace
  /-- The token `:`. -/
  | colon
  /-- The token `;`. -/
  | semicolon
  /-- The token `,`. -/
  | comma
  /-- The token `.`. -/
  | period
  /-- The token `...`. -/
  | ellipsis
  /-- The token `?`. -/
  | conditional
  /-- The token `?.`. -/
  | questionPeriod
  /-- The token `??`. -/
  | nullish
  /-- The token `=>`. -/
  | arrow
  /-- The token `++`. -/
  | inc
  /-- The token `--`. -/
  | dec
  /-- The token `=`. -/
  | assign
  /-- The token `??=`. -/
  | assignNullish
  /-- The token `||=`. -/
  | assignOr
  /-- The token `&&=`. -/
  | assignAnd
  /-- The token `|=`. -/
  | assignBitOr
  /-- The token `^=`. -/
  | assignBitXor
  /-- The token `&=`. -/
  | assignBitAnd
  /-- The token `<<=`. -/
  | assignShl
  /-- The token `>>=`. -/
  | assignSar
  /-- The token `>>>=`. -/
  | assignShr
  /-- The token `*=`. -/
  | assignMul
  /-- The token `/=`. -/
  | assignDiv
  /-- The token `%=`. -/
  | assignMod
  /-- The token `**=`. -/
  | assignExp
  /-- The token `+=`. -/
  | assignAdd
  /-- The token `-=`. -/
  | assignSub
  /-- The token `||`. -/
  | or
  /-- The token `&&`. -/
  | and
  /-- The token `|`. -/
  | bitOr
  /-- The token `^`. -/
  | bitXor
  /-- The token `&`. -/
  | bitAnd
  /-- The token `<<`. -/
  | shl
  /-- The token `>>`. -/
  | sar
  /-- The token `>>>`. -/
  | shr
  /-- The token `*`. -/
  | mul
  /-- The token `/`. -/
  | div
  /-- The token `%`. -/
  | mod
  /-- The token `**`. -/
  | exp
  /-- The token `+`. -/
  | add
  /-- The token `-`. -/
  | sub
  /-- The token `!`. -/
  | not
  /-- The token `~`. -/
  | bitNot
  /-- The token `==`. -/
  | eq
  /-- The token `!=`. -/
  | ne
  /-- The token `===`. -/
  | eqStrict
  /-- The token `!==`. -/
  | neStrict
  /-- The token `<`. -/
  | lt
  /-- The token `>`. -/
  | gt
  /-- The token `<=`. -/
  | lte
  /-- The token `>=`. -/
  | gte
  deriving DecidableEq, Repr

namespace Punctuator

/-- The spelling of a punctuator. -/
def lexeme : Punctuator → String
  | leftParen => "("
  | rightParen => ")"
  | leftBracket => "["
  | rightBracket => "]"
  | leftBrace => "\x7b"
  | rightBrace => "\x7d"
  | colon => ":"
  | semicolon => ";"
  | comma => ","
  | period => "."
  | ellipsis => "..."
  | conditional => "?"
  | questionPeriod => "?."
  | nullish => "??"
  | arrow => "=>"
  | inc => "++"
  | dec => "--"
  | assign => "="
  | assignNullish => "??="
  | assignOr => "||="
  | assignAnd => "&&="
  | assignBitOr => "|="
  | assignBitXor => "^="
  | assignBitAnd => "&="
  | assignShl => "<<="
  | assignSar => ">>="
  | assignShr => ">>>="
  | assignMul => "*="
  | assignDiv => "/="
  | assignMod => "%="
  | assignExp => "**="
  | assignAdd => "+="
  | assignSub => "-="
  | or => "||"
  | and => "&&"
  | bitOr => "|"
  | bitXor => "^"
  | bitAnd => "&"
  | shl => "<<"
  | sar => ">>"
  | shr => ">>>"
  | mul => "*"
  | div => "/"
  | mod => "%"
  | exp => "**"
  | add => "+"
  | sub => "-"
  | not => "!"
  | bitNot => "~"
  | eq => "=="
  | ne => "!="
  | eqStrict => "==="
  | neStrict => "!=="
  | lt => "<"
  | gt => ">"
  | lte => "<="
  | gte => ">="

/-- The name of a punctuator in token dumps. -/
def name : Punctuator → String
  | leftParen => "LeftParen"
  | rightParen => "RightParen"
  | leftBracket => "LeftBracket"
  | rightBracket => "RightBracket"
  | leftBrace => "LeftBrace"
  | rightBrace => "RightBrace"
  | colon => "Colon"
  | semicolon => "Semicolon"
  | comma => "Comma"
  | period => "Period"
  | ellipsis => "Ellipsis"
  | conditional => "Conditional"
  | questionPeriod => "QuestionPeriod"
  | nullish => "Nullish"
  | arrow => "Arrow"
  | inc => "Inc"
  | dec => "Dec"
  | assign => "Assign"
  | assignNullish => "AssignNullish"
  | assignOr => "AssignOr"
  | assignAnd => "AssignAnd"
  | assignBitOr => "AssignBitOr"
  | assignBitXor => "AssignBitXor"
  | assignBitAnd => "AssignBitAnd"
  | assignShl => "AssignShl"
  | assignSar => "AssignSar"
  | assignShr => "AssignShr"
  | assignMul => "AssignMul"
  | assignDiv => "AssignDiv"
  | assignMod => "AssignMod"
  | assignExp => "AssignExp"
  | assignAdd => "AssignAdd"
  | assignSub => "AssignSub"
  | or => "Or"
  | and => "And"
  | bitOr => "BitOr"
  | bitXor => "BitXor"
  | bitAnd => "BitAnd"
  | shl => "Shl"
  | sar => "Sar"
  | shr => "Shr"
  | mul => "Mul"
  | div => "Div"
  | mod => "Mod"
  | exp => "Exp"
  | add => "Add"
  | sub => "Sub"
  | not => "Not"
  | bitNot => "BitNot"
  | eq => "Eq"
  | ne => "Ne"
  | eqStrict => "EqStrict"
  | neStrict => "NeStrict"
  | lt => "Lt"
  | gt => "Gt"
  | lte => "Lte"
  | gte => "Gte"

/-- All punctuators: brackets and separators, assignments, binary operators, unary
operators, comparisons. -/
def all : List Punctuator :=
  [.leftParen, .rightParen, .leftBracket, .rightBracket, .leftBrace, .rightBrace, .colon,
    .semicolon, .comma, .period, .ellipsis, .conditional, .questionPeriod, .nullish, .arrow,
    .inc, .dec, .assign, .assignNullish, .assignOr, .assignAnd, .assignBitOr, .assignBitXor,
    .assignBitAnd, .assignShl, .assignSar, .assignShr, .assignMul, .assignDiv, .assignMod,
    .assignExp, .assignAdd, .assignSub, .or, .and, .bitOr, .bitXor, .bitAnd, .shl, .sar, .shr,
    .mul, .div, .mod, .exp, .add, .sub, .not, .bitNot, .eq, .ne, .eqStrict, .neStrict, .lt, .gt,
    .lte, .gte]

theorem mem_all (p : Punctuator) : p ∈ all := by
  cases p <;> decide

end Punctuator

end EcmaLex
