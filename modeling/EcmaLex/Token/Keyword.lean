/-!
# Keywords

The words with a token kind of their own, and how the text of an identifier is
told apart from them.

All of these words have two to ten letters and start with a lower-case one, so a
text is first sorted by its length and then compared with the words of that
length.

## Main definitions

* `Keyword` — the keywords.
* `Keyword.all` — all of them, each once.
* `Keyword.words` — all of their spellings, which the facts about single characters are made from.
* `Keyword.lexeme` — the spelling of each.
* `Keyword.isContextual`, `Keyword.isStrictReserved` — keywords that are identifiers elsewhere.
* `Keyword.ofText` — the keyword with a given spelling.
-/

namespace EcmaLex

/-- A keyword. -/
inductive Keyword where
  /-- The word `async`. -/
  | kwAsync
  /-- The word `await`. -/
  | kwAwait
  /-- The word `break`. -/
  | kwBreak
  /-- The word `case`. -/
  | kwCase
  /-- The word `catch`. -/
  | kwCatch
  /-- The word `class`. -/
  | kwClass
  /-- The word `const`. -/
  | kwConst
  /-- The word `continue`. -/
  | kwContinue
  /-- The word `debugger`. -/
  | kwDebugger
  /-- The word `default`. -/
  | kwDefault
  /-- The word `delete`. -/
  | kwDelete
  /-- The word `do`. -/
  | kwDo
  /-- The word `else`. -/
  | kwElse
  /-- The word `enum`. -/
  | kwEnum
  /-- The word `export`. -/
  | kwExport
  /-- The word `extends`. -/
  | kwExtends
  /-- The word `false`. -/
  | kwFalse
  /-- The word `finally`. -/
  | kwFinally
  /-- The word `for`. -/
  | kwFor
  /-- The word `function`. -/
  | kwFunction
  /-- The word `get`. -/
  | kwGet
  /-- The word `if`. -/
  | kwIf
  /-- The word `implements`. -/
  | kwImplements
  /-- The word `import`. -/
  | kwImport
  /-- The word `in`. -/
  | kwIn
  /-- The word `instanceof`. -/
  | kwInstanceOf
  /-- The word `interface`. -/
  | kwInterface
  /-- The word `let`. -/
  | kwLet
  /-- The word `new`. -/
  | kwNew
  /-- The word `null`. -/
  | kwNull
  /-- The word `package`. -/
  | kwPackage
  /-- The word `private`. -/
  | kwPrivate
  /-- The word `protected`. -/
  | kwProtected
  /-- The word `public`. -/
  | kwPublic
  /-- The word `return`. -/
  | kwReturn
  /-- The word `set`. -/
  | kwSet
  /-- The word `static`. -/
  | kwStatic
  /-- The word `super`. -/
  | kwSuper
  /-- The word `switch`. -/
  | kwSwitch
  /-- The word `this`. -/
  | kwThis
  /-- The word `throw`. -/
  | kwThrow
  /-- The word `true`. -/
  | kwTrue
  /-- The word `try`. -/
  | kwTry
  /-- The word `typeof`. -/
  | kwTypeOf
  /-- The word `var`. -/
  | kwVar
  /-- The word `void`. -/
  | kwVoid
  /-- The word `while`. -/
  | kwWhile
  /-- The word `with`. -/
  | kwWith
  /-- The word `yield`. -/
  | kwYield
  deriving DecidableEq, Repr

namespace Keyword

/-- The spelling of a keyword. -/
def lexeme : Keyword → String
  | kwAsync => "async"
  | kwAwait => "await"
  | kwBreak => "break"
  | kwCase => "case"
  | kwCatch => "catch"
  | kwClass => "class"
  | kwConst => "const"
  | kwContinue => "continue"
  | kwDebugger => "debugger"
  | kwDefault => "default"
  | kwDelete => "delete"
  | kwDo => "do"
  | kwElse => "else"
  | kwEnum => "enum"
  | kwExport => "export"
  | kwExtends => "extends"
  | kwFalse => "false"
  | kwFinally => "finally"
  | kwFor => "for"
  | kwFunction => "function"
  | kwGet => "get"
  | kwIf => "if"
  | kwImplements => "implements"
  | kwImport => "import"
  | kwIn => "in"
  | kwInstanceOf => "instanceof"
  | kwInterface => "interface"
  | kwLet => "let"
  | kwNew => "new"
  | kwNull => "null"
  | kwPackage => "package"
  | kwPrivate => "private"
  | kwProtected => "protected"
  | kwPublic => "public"
  | kwReturn => "return"
  | kwSet => "set"
  | kwStatic => "static"
  | kwSuper => "super"
  | kwSwitch => "switch"
  | kwThis => "this"
  | kwThrow => "throw"
  | kwTrue => "true"
  | kwTry => "try"
  | kwTypeOf => "typeof"
  | kwVar => "var"
  | kwVoid => "void"
  | kwWhile => "while"
  | kwWith => "with"
  | kwYield => "yield"

/-- The name of a keyword in token dumps. -/
def name : Keyword → String
  | kwAsync => "Async"
  | kwAwait => "Await"
  | kwBreak => "Break"
  | kwCase => "Case"
  | kwCatch => "Catch"
  | kwClass => "Class"
  | kwConst => "Const"
  | kwContinue => "Continue"
  | kwDebugger => "Debugger"
  | kwDefault => "Default"
  | kwDelete => "Delete"
  | kwDo => "Do"
  | kwElse => "Else"
  | kwEnum => "Enum"
  | kwExport => "Export"
  | kwExtends => "Extends"
  | kwFalse => "False"
  | kwFinally => "Finally"
  | kwFor => "For"
  | kwFunction => "Function"
  | kwGet => "Get"
  | kwIf => "If"
  | kwImplements => "Implements"
  | kwImport => "Import"
  | kwIn => "In"
  | kwInstanceOf => "InstanceOf"
  | kwInterface => "Interface"
  | kwLet => "Let"
  | kwNew => "New"
  | kwNull => "Null"
  | kwPackage => "Package"
  | kwPrivate => "Private"
  | kwProtected => "Protected"
  | kwPublic => "Public"
  | kwReturn => "Return"
  | kwSet => "Set"
  | kwStatic => "Static"
  | kwSuper => "Super"
  | kwSwitch => "Switch"
  | kwThis => "This"
  | kwThrow => "Throw"
  | kwTrue => "True"
  | kwTry => "Try"
  | kwTypeOf => "TypeOf"
  | kwVar => "Var"
  | kwVoid => "Void"
  | kwWhile => "While"
  | kwWith => "With"
  | kwYield => "Yield"

/-- All keywords, in alphabetical order. -/
def all : List Keyword :=
  [.kwAsync, .kwAwait, .kwBreak, .kwCase, .kwCatch, .kwClass, .kwConst, .kwContinue,
    .kwDebugger, .kwDefault, .kwDelete, .kwDo, .kwElse, .kwEnum, .kwExport, .kwExtends,
    .kwFalse, .kwFinally, .kwFor, .kwFunction, .kwGet, .kwIf, .kwImplements, .kwImport, .kwIn,
    .kwInstanceOf, .kwInterface, .kwLet, .kwNew, .kwNull, .kwPackage, .kwPrivate, .kwProtected,
    .kwPublic, .kwReturn, .kwSet, .kwStatic, .kwSuper, .kwSwitch, .kwThis, .kwThrow, .kwTrue,
    .kwTry, .kwTypeOf, .kwVar, .kwVoid, .kwWhile, .kwWith, .kwYield]

theorem mem_all (k : Keyword) : k ∈ all := by
  cases k <;> decide

/-- Every word that has a token kind of its own, in alphabetical order. -/
def words : List String :=
  ["async", "await", "break", "case", "catch", "class", "const", "continue", "debugger",
    "default", "delete", "do", "else", "enum", "export", "extends", "false", "finally", "for",
    "function", "get", "if", "implements", "import", "in", "instanceof", "interface", "let",
    "new", "null", "package", "private", "protected", "public", "return", "set", "static",
    "super", "switch", "this", "throw", "true", "try", "typeof", "var", "void", "while", "with",
    "yield"]

/-- The words that are identifiers outside certain places of the grammar.  Spelled
with an escape such a word keeps its own kind. -/
def isContextual : Keyword → Bool
  | kwAsync | kwAwait | kwGet | kwSet | kwYield => true
  | _ => false

/-- The words that are reserved in strict mode code only. -/
def isStrictReserved : Keyword → Bool
  | kwImplements | kwInterface | kwPackage | kwPrivate | kwProtected | kwPublic | kwLet
  | kwStatic => true
  | _ => false

/-- The keyword spelled by a text of a given length in bytes.  No text of another
length than its own spells a keyword. -/
def ofTextOfLength (text : String) : Nat → Option Keyword
  | 2 =>
    match text with
    | "do" => some .kwDo
    | "if" => some .kwIf
    | "in" => some .kwIn
    | _ => none
  | 3 =>
    match text with
    | "for" => some .kwFor
    | "get" => some .kwGet
    | "let" => some .kwLet
    | "new" => some .kwNew
    | "set" => some .kwSet
    | "try" => some .kwTry
    | "var" => some .kwVar
    | _ => none
  | 4 =>
    match text with
    | "case" => some .kwCase
    | "else" => some .kwElse
    | "enum" => some .kwEnum
    | "null" => some .kwNull
    | "this" => some .kwThis
    | "true" => some .kwTrue
    | "void" => some .kwVoid
    | "with" => some .kwWith
    | _ => none
  | 5 =>
    match text with
    | "async" => some .kwAsync
    | "await" => some .kwAwait
    | "break" => some .kwBreak
    | "catch" => some .kwCatch
    | "class" => some .kwClass
    | "const" => some .kwConst
    | "false" => some .kwFalse
    | "super" => some .kwSuper
    | "throw" => some .kwThrow
    | "while" => some .kwWhile
    | "yield" => some .kwYield
    | _ => none
  | 6 =>
    match text with
    | "delete" => some .kwDelete
    | "export" => some .kwExport
    | "import" => some .kwImport
    | "public" => some .kwPublic
    | "return" => some .kwReturn
    | "static" => some .kwStatic
    | "switch" => some .kwSwitch
    | "typeof" => some .kwTypeOf
    | _ => none
  | 7 =>
    match text with
    | "default" => some .kwDefault
    | "extends" => some .kwExtends
    | "finally" => some .kwFinally
    | "package" => some .kwPackage
    | "private" => some .kwPrivate
    | _ => none
  | 8 =>
    match text with
    | "continue" => some .kwContinue
    | "debugger" => some .kwDebugger
    | "function" => some .kwFunction
    | _ => none
  | 9 =>
    match text with
    | "interface" => some .kwInterface
    | "protected" => some .kwProtected
    | _ => none
  | 10 =>
    match text with
    | "implements" => some .kwImplements
    | "instanceof" => some .kwInstanceOf
    | _ => none
  | _ => none

/-- The keyword spelled by a text, if it spells one. -/
def ofText (text : String) : Option Keyword :=
  let size := text.utf8ByteSize
  if 2 ≤ size && size ≤ 10 && text.front.isLower then ofTextOfLength text size else none

end Keyword

end EcmaLex
