import EcmaLex.Span

/-!
# Padded text

A text is kept as its UTF-8 bytes, closed by a zero byte and padded with further
zeros to a multiple of the cache line.  A reader can then look at the byte under
it without asking first whether the text has ended: the end is a zero byte at
or past the length of the text.  A zero byte before that is an ordinary
character, which string literals and comments may hold.

What is read from a padded text is found by its offset, which has to fit into a
machine word.  So a padded text stands for its string only as long as the string is
`Addressable`.  Of a longer one a program with such offsets would keep the first
`Span.maxOffset` bytes, even where that cuts a character.  Here nothing is cut, and
what is shown of such a string does not tell what the program reads of it.

## Main definitions

* `PaddedText` — the bytes and the length of the text.
* `PaddedText.ofString` — the padded text of a string.
* `PaddedText.byteAt` — the byte at an offset, zero past the end.
-/

namespace EcmaLex

/-- The bytes of a text, followed by zeros. -/
structure PaddedText where
  /-- The text, its closing zero and the padding. -/
  bytes : ByteArray
  /-- The length of the text alone, in bytes. -/
  size : Nat

namespace PaddedText

/-- The number of bytes that the padded size is a multiple of. -/
def lineSize : Nat := 64

/-- The least multiple of the line size that has room for `size` bytes and the
closing zero. -/
def paddedSize (size : Nat) : Nat := (size + 1 + (lineSize - 1)) / lineSize * lineSize

/-- The padded text of a string that is `Addressable`.  A longer one, which would have
to be cut, is taken whole. -/
def ofString (s : String) : PaddedText :=
  let content := s.toUTF8
  { bytes := content ++ ⟨Array.replicate (paddedSize content.size - content.size) 0⟩
    size := content.size }

/-- The bytes of the text alone. -/
def content (t : PaddedText) : ByteArray := t.bytes.extract 0 t.size

/-- Whether the text is empty. -/
def isEmpty (t : PaddedText) : Bool := t.size == 0

/-- The byte at an offset, zero past the padding. -/
def byteAt (t : PaddedText) (i : Nat) : UInt8 :=
  if h : i < t.bytes.size then t.bytes[i] else 0

theorem lt_paddedSize (size : Nat) : size < paddedSize size := by
  unfold paddedSize lineSize
  omega

theorem byteAt_of_size_le {t : PaddedText} {i : Nat} (h : t.bytes.size ≤ i) :
    t.byteAt i = 0 :=
  dif_neg (Nat.not_lt.2 h)

end PaddedText

end EcmaLex
