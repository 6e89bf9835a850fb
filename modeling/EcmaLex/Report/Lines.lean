import EcmaLex.Character.Class

/-!
# The lines of a text

A report shows the line that an error is in.  A line ends with a line terminator
of any script, or where the text ends, and includes that terminator; a carriage
return and a line feed are one terminator.  No line is empty.

## Main definitions

* `splitLines` — the lines of a text.
* `TextLine` — a line and where it is.
* `TextLine.ofString` — the lines of a string, in their places.
* `lineAt` — the line that an offset is in.
-/

namespace EcmaLex

/-- The characters that end a line of a report: the ASCII controls that move to a new
line, the next line control, and the line and paragraph separators. -/
def endsLine (c : Char) : Bool :=
  ('\n' ≤ c && c ≤ '\r') || c == '\u0085' || c == '\u2028' || c == '\u2029'

/-- Splits characters into lines, of which the first begins with `started`, in
reverse. -/
def splitLines (started : List Char) : List Char → List (List Char)
  | [] => if started.isEmpty then [] else [started.reverse]
  | '\r' :: '\n' :: rest => ('\n' :: '\r' :: started).reverse :: splitLines [] rest
  | c :: rest =>
    if endsLine c then (c :: started).reverse :: splitLines [] rest
    else splitLines (c :: started) rest

/-- The number of bytes in the UTF-8 encoding of some characters. -/
def byteLength (cs : List Char) : Nat := cs.foldr (fun c n => c.utf8Size + n) 0

/-- A line of a text. -/
structure TextLine where
  /-- The number of the line, from one. -/
  number : Nat
  /-- The offset of its first byte. -/
  byteStart : Nat
  /-- Its characters, with the terminator. -/
  chars : List Char
  deriving Repr

namespace TextLine

/-- Puts lines into their places, the first after so many lines and bytes. -/
def place (number byteStart : Nat) : List (List Char) → List TextLine
  | [] => []
  | cs :: rest =>
    ⟨number + 1, byteStart, cs⟩ :: place (number + 1) (byteStart + byteLength cs) rest

/-- The lines of a string. -/
def ofString (s : String) : List TextLine := place 0 0 (splitLines [] s.toList)

/-- The number of characters of the line that start before an offset into the text. -/
def charsBefore (l : TextLine) (offset : Nat) : Nat := go l.byteStart l.chars
where
  /-- Counts on from the character at `start`. -/
  go (start : Nat) : List Char → Nat
    | [] => 0
    | c :: rest => if start < offset then go (start + c.utf8Size) rest + 1 else 0

/-- The characters of the line without blanks at the end. -/
def trimmed (l : TextLine) : List Char := (l.chars.reverse.dropWhile isUnicodeSpace).reverse

end TextLine

/-- The last line that starts at or before an offset. -/
def lineAt (lines : List TextLine) (offset : Nat) : Option TextLine :=
  (lines.filter (·.byteStart ≤ offset)).getLast?

end EcmaLex
