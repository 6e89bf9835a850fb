import EcmaLex.Character.IdentifierTable
import EcmaLex.Character.InvisibleTable
import EcmaLex.Character.WideTable
import EcmaLex.Character.ZeroWidthTable

/-!
# Character classes of the lexical grammar

The predicates on single characters that the grammar is written with.  The
digit classes and the words of the fast path are ASCII by definition of the
grammar; white space, line terminators and identifier characters are not.

## Main definitions

* `isLineTerminator`, `isWhiteSpace`, `isBlank` — what separates tokens.
* `isDecimalDigit`, `isHexDigit`, `isOctalDigit`, `isBinaryDigit` — digits by radix.
* `digitValue` — the value of a digit.
* `isIdentifierStart`, `isIdentifierPart` — what identifiers are made of.
* `isInvisible`, `isUnicodeSpace`, `columns` — what matters when text is printed.
-/

namespace EcmaLex

/-! ### Separators -/

/-- Line feed, carriage return, line separator and paragraph separator. -/
def isLineTerminator (c : Char) : Bool :=
  c == '\n' || c == '\r' || c == '\u2028' || c == '\u2029'

/-- The white space of the grammar, line terminators excluded: tab, vertical tab,
form feed, byte order mark, and the space separators. -/
def isWhiteSpace (c : Char) : Bool :=
  c == '\t' || c == '\x0b' || c == '\x0c' || c == ' ' || c == '\u00a0' || c == '\ufeff' ||
  c == '\u1680' || ('\u2000' ≤ c && c ≤ '\u200a') || c == '\u202f' || c == '\u205f' ||
  c == '\u3000'

/-- White space or a line terminator. -/
def isBlank (c : Char) : Bool := isWhiteSpace c || isLineTerminator c

/-! ### Digits -/

/-- `0` to `9`. -/
def isDecimalDigit (c : Char) : Bool := '0' ≤ c && c ≤ '9'

/-- `0` to `9`, `a` to `f` and `A` to `F`. -/
def isHexDigit (c : Char) : Bool :=
  isDecimalDigit c || ('a' ≤ c && c ≤ 'f') || ('A' ≤ c && c ≤ 'F')

/-- `0` to `7`. -/
def isOctalDigit (c : Char) : Bool := '0' ≤ c && c ≤ '7'

/-- `0` and `1`. -/
def isBinaryDigit (c : Char) : Bool := c == '0' || c == '1'

/-- `8` and `9`: the digits that no octal literal holds. -/
def isNonOctalDecimalDigit (c : Char) : Bool := c == '8' || c == '9'

/-- The value of a hexadecimal digit, if `c` is one. -/
def hexDigitValue (c : Char) : Option Nat :=
  if isDecimalDigit c then some (c.toNat - '0'.toNat)
  else if 'a' ≤ c && c ≤ 'f' then some (c.toNat - 'a'.toNat + 10)
  else if 'A' ≤ c && c ≤ 'F' then some (c.toNat - 'A'.toNat + 10)
  else none

/-- The value of a digit of the given radix, which is at most sixteen. -/
def digitValue (radix : Nat) (c : Char) : Option Nat :=
  (hexDigitValue c).filter (· < radix)

/-! ### Identifiers -/

/-- An ASCII letter. -/
def isAsciiLetter (c : Char) : Bool := ('a' ≤ c && c ≤ 'z') || ('A' ≤ c && c ≤ 'Z')

/-- The ASCII characters that stand for themselves in an identifier: letters,
digits, `$` and `_`. -/
def isAsciiIdentifier (c : Char) : Bool :=
  isAsciiLetter c || isDecimalDigit c || c == '$' || c == '_'

/-- Whether the character is an ASCII one. -/
def isAscii (c : Char) : Bool := c.toNat < 128

/-- The zero width non-joiner and the zero width joiner, which may stand inside
identifiers. -/
def isJoinControl (c : Char) : Bool := c == '\u200c' || c == '\u200d'

/-- Whether the character may start an identifier.  A backslash may, since it may
begin an escape. -/
def isIdentifierStart (c : Char) : Bool :=
  if isAscii c then isAsciiLetter c || c == '$' || c == '_' || c == '\\'
  else identifierStartSet.contains c

/-- Whether the character may continue an identifier, again counting the
backslash. -/
def isIdentifierPart (c : Char) : Bool :=
  if isAscii c then isAsciiIdentifier c || c == '\\'
  else isJoinControl c || identifierStartSet.contains c || identifierContinueOnlySet.contains c

/-- Whatever may start an identifier may also continue one. -/
theorem isIdentifierPart_of_isIdentifierStart {c : Char} (h : isIdentifierStart c = true) :
    isIdentifierPart c = true := by
  unfold isIdentifierStart at h
  unfold isIdentifierPart isAsciiIdentifier
  split at h <;> simp_all
  rcases h with ((h | h) | h) | h <;> simp [h]

/-! ### Printing -/

/-- Whether quoted text spells the character out, because it has no glyph of its
own. -/
def isInvisible (c : Char) : Bool := invisibleSet.contains c

/-- The characters with the property `White_Space`: the white space of the grammar
without the byte order mark, the line terminators, and the next line control. -/
def isUnicodeSpace (c : Char) : Bool :=
  (isBlank c && c != '\ufeff') || c == '\u0085'

/-- The number of columns that a terminal draws the character over.  Two Khmer
characters are written out as the letters they stand for: the independent vowel
qaa as two of them, the sign beyyal as three. -/
def columns (c : Char) : Nat :=
  if zeroWidthSet.contains c then 0
  else if wideSet.contains c || c == '\u17a4' then 2
  else if c == '\u17d8' then 3
  else 1

end EcmaLex
